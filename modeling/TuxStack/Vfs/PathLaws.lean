import TuxStack.Lib.Result
import TuxStack.Vfs.Path

/-!
# The laws of a path

`crates/tuxstack-vfs/src/path.rs`. The source keeps the length of the text beside the
components, set once by each constructor, and takes a sublist of the components with
an `expect`. `StoredPath` is that record, without a check on what it holds; a run of
its operations can fail with an error or panic. Every one that the operations yield is
the record of a `VirtualPath` (`stored_of_obtainable`), so its laws are those of the
paths that carry their bound.
-/

namespace TuxStack.Vfs

/-! ## The record and its operations -/

/-- How a call ends that does not return: with an error, or in an `expect`. -/
inductive Failure where
  | error (e : VfsError)
  | panicked (message : String)
deriving DecidableEq

/-- The `?` operator. -/
def propagate {α : Type} : Except VfsError α → Except Failure α :=
  Except.mapError .error

/-- `Result::expect`. -/
def expect {ε α : Type} (message : String) : Except ε α → Except Failure α :=
  Except.mapError fun _ => .panicked message

/-- `VirtualPath` as the source stores it. -/
structure StoredPath where
  components : List VirtualFileName
  byteLen : Nat
deriving DecidableEq

namespace StoredPath

def root : StoredPath := ⟨[], 1⟩

/-- `VirtualPath::from_components`; one is taken off when there is a component. -/
def fromComponents (components : List VirtualFileName) : Except VfsError StoredPath :=
  let byteLen := 1 + (components.map fun item => item.bytes.length + 1).sum
  let correction := if components.isEmpty then 0 else 1
  if defaultMaxPathBytes < byteLen - correction then .error .pathTooLong
  else .ok ⟨components, byteLen - correction⟩

def isRoot (p : StoredPath) : Bool := p.components.isEmpty

def depth (p : StoredPath) : Nat := p.components.length

/-- `VirtualPath::byte_len`. -/
def byteLength (p : StoredPath) : Nat := max p.byteLen 1

/-- `VirtualPath::parent`. -/
def parent (p : StoredPath) : Except Failure (Option StoredPath) :=
  if p.isRoot then .ok none
  else some <$> expect "existing path is valid" (fromComponents (p.components.take (p.depth - 1)))

def join (p : StoredPath) (name : VirtualFileName) : Except VfsError StoredPath :=
  fromComponents (p.components ++ [name])

def startsWith (p pre : StoredPath) : Bool := pre.components.isPrefixOf p.components

/-- `VirtualPath::strip_prefix`. -/
def stripPrefix (p pre : StoredPath) : Except Failure (Option StoredPath) :=
  if p.startsWith pre then
    some <$> expect "subpath is valid" (fromComponents (p.components.drop pre.depth))
  else .ok none

def asBytes (p : StoredPath) : Bytes :=
  if p.isRoot then [slash] else p.components.flatMap fun component => slash :: component.bytes

/-- The loop body of `from_absolute_with_limit`. -/
def absorb (path : StoredPath) (raw : Bytes) : Except Failure StoredPath :=
  if raw = [] ∨ raw = [dot] then .ok path
  else if raw = [dot, dot] then do
    match ← path.parent with
    | some p => .ok p
    | none => .error (.error .symlinkEscape)
  else do
    let name ← propagate (VirtualFileName.new raw)
    propagate (path.join name)

def fromAbsoluteWithLimit (bytes : Bytes) (maxBytes : Nat) : Except Failure StoredPath :=
  if 0 ∈ bytes then .error (.error (.invalidInput "NUL is not allowed in paths"))
  else if bytes.head? ≠ some slash then
    .error (.error (.invalidInput "VirtualPath must be absolute"))
  else if maxBytes < bytes.length then .error (.error .pathTooLong)
  else ((bytes.splitOn slash).drop 1).foldlM absorb root

def fromAbsolute (bytes : Bytes) : Except Failure StoredPath :=
  fromAbsoluteWithLimit bytes defaultMaxPathBytes

inductive Obtainable : StoredPath → Prop where
  | root : Obtainable root
  | fromAbsolute {bytes : Bytes} {maxBytes : Nat} {p : StoredPath} :
      fromAbsoluteWithLimit bytes maxBytes = .ok p → Obtainable p
  | fromComponents {components : List VirtualFileName} {p : StoredPath} :
      fromComponents components = .ok p → Obtainable p
  | join {p q : StoredPath} {name : VirtualFileName} :
      Obtainable p → p.join name = .ok q → Obtainable q
  | parent {p q : StoredPath} : Obtainable p → p.parent = .ok (some q) → Obtainable q
  | stripPrefix {p pre q : StoredPath} :
      Obtainable p → Obtainable pre → p.stripPrefix pre = .ok (some q) → Obtainable q

end StoredPath

/-! ## The record of a path -/

/-- The record the source keeps for a path. -/
def VirtualPath.stored (p : VirtualPath) : StoredPath := ⟨p.components, pathByteLen p.components⟩

namespace StoredPath

theorem fromComponents_eq (components : List VirtualFileName) :
    fromComponents components = (VirtualPath.fromComponents components).map VirtualPath.stored := by
  have hlen : 1 + (components.map fun item => item.bytes.length + 1).sum -
      (if components.isEmpty then 0 else 1) = pathByteLen components := by
    simp only [pathByteLen, List.isEmpty_iff]
  simp only [fromComponents, VirtualPath.fromComponents, hlen]
  split
  · rename_i hlong
    rw [dif_neg (Nat.not_le.mpr hlong)]
    rfl
  · rename_i hfits
    rw [dif_pos (Nat.not_lt.mp hfits)]
    rfl

/-- A sublist of the components of a path is again a path: no `expect` fires. -/
theorem expect_sublist (message : String) {p : VirtualPath} {cs : List VirtualFileName}
    (h : cs.Sublist p.components) :
    expect message (fromComponents cs) =
      .ok (⟨cs, VirtualPath.bounded_sublist h⟩ : VirtualPath).stored := by
  rw [fromComponents_eq, VirtualPath.fromComponents, dif_pos (VirtualPath.bounded_sublist h)]
  rfl

theorem parent_eq (p : VirtualPath) : p.stored.parent = .ok (p.parent.map VirtualPath.stored) := by
  unfold parent VirtualPath.parent
  by_cases hroot : p.components = []
  · simp [isRoot, VirtualPath.stored, hroot]
  · have hne : p.stored.isRoot = false := by simpa [isRoot, VirtualPath.stored] using hroot
    have htake : p.stored.components.take (p.stored.depth - 1) = p.components.dropLast :=
      List.dropLast_eq_take.symm
    rw [hne, if_neg (by simp), if_neg hroot, htake, expect_sublist _ (List.dropLast_sublist _)]
    rfl

theorem join_eq (p : VirtualPath) (name : VirtualFileName) :
    p.stored.join name = (p.join name).map VirtualPath.stored :=
  fromComponents_eq _

theorem stripPrefix_eq (p pre : VirtualPath) :
    p.stored.stripPrefix pre.stored = .ok ((p.stripPrefix pre).map VirtualPath.stored) := by
  unfold stripPrefix VirtualPath.stripPrefix
  have hstarts : p.stored.startsWith pre.stored = p.startsWith pre := rfl
  rw [hstarts]
  split
  · change some <$> expect _ (fromComponents (p.components.drop pre.depth)) = _
    rw [expect_sublist _ (List.drop_sublist _ _)]
    rfl
  · rfl

theorem asBytes_eq (p : VirtualPath) : p.stored.asBytes = p.asBytes := by
  simp [asBytes, VirtualPath.asBytes, isRoot, VirtualPath.stored]

theorem absorb_eq (path : VirtualPath) (raw : Bytes) :
    path.stored.absorb raw = propagate ((path.absorb raw).map VirtualPath.stored) := by
  unfold absorb VirtualPath.absorb
  split
  · rfl
  · split
    · rw [parent_eq]
      cases path.parent <;> rfl
    · cases VirtualFileName.new raw with
      | error e => rfl
      | ok name =>
        change propagate (path.stored.join name) = propagate ((path.join name).map _)
        rw [join_eq]

theorem foldlM_absorb_eq (raws : List Bytes) (path : VirtualPath) :
    raws.foldlM absorb path.stored =
      propagate ((raws.foldlM VirtualPath.absorb path).map VirtualPath.stored) := by
  induction raws generalizing path with
  | nil => rfl
  | cons raw raws ih =>
    rw [List.foldlM_cons, List.foldlM_cons, absorb_eq]
    cases hstep : path.absorb raw with
    | error e => rfl
    | ok next => exact ih next

/-- **Parsing**: as on paths, and without a panic. -/
theorem fromAbsoluteWithLimit_eq (bytes : Bytes) (maxBytes : Nat) :
    fromAbsoluteWithLimit bytes maxBytes =
      propagate ((VirtualPath.fromAbsoluteWithLimit bytes maxBytes).map VirtualPath.stored) := by
  unfold fromAbsoluteWithLimit VirtualPath.fromAbsoluteWithLimit
  split
  · rfl
  · split
    · rfl
    · split
      · rfl
      · exact foldlM_absorb_eq _ VirtualPath.root

/-- **The invariant**: what the operations yield is the record of a path. -/
theorem stored_of_obtainable {p : StoredPath} (h : Obtainable p) :
    ∃ q : VirtualPath, p = q.stored := by
  induction h with
  | root => exact ⟨VirtualPath.root, rfl⟩
  | @fromAbsolute bytes maxBytes p hp =>
    rw [fromAbsoluteWithLimit_eq] at hp
    cases hq : VirtualPath.fromAbsoluteWithLimit bytes maxBytes with
    | error e =>
      rw [hq] at hp
      cases hp
    | ok q =>
      rw [hq] at hp
      cases hp
      exact ⟨q, rfl⟩
  | @fromComponents components p hp =>
    rw [fromComponents_eq] at hp
    cases hq : VirtualPath.fromComponents components with
    | error e =>
      rw [hq] at hp
      cases hp
    | ok q =>
      rw [hq] at hp
      cases hp
      exact ⟨q, rfl⟩
  | @join p q name _ hq ih =>
    obtain ⟨p, rfl⟩ := ih
    rw [join_eq] at hq
    cases hjoin : p.join name with
    | error e =>
      rw [hjoin] at hq
      cases hq
    | ok r =>
      rw [hjoin] at hq
      cases hq
      exact ⟨r, rfl⟩
  | @parent p q _ hq ih =>
    obtain ⟨p, rfl⟩ := ih
    rw [parent_eq, Except.ok.injEq] at hq
    obtain ⟨r, -, rfl⟩ := Option.map_eq_some_iff.mp hq
    exact ⟨r, rfl⟩
  | @stripPrefix p pre q _ _ hq ih ihpre =>
    obtain ⟨p, rfl⟩ := ih
    obtain ⟨pre, rfl⟩ := ihpre
    rw [stripPrefix_eq, Except.ok.injEq] at hq
    obtain ⟨r, -, rfl⟩ := Option.map_eq_some_iff.mp hq
    exact ⟨r, rfl⟩

/-! ## The laws -/

theorem byteLength_eq (p : VirtualPath) : p.stored.byteLength = p.asBytes.length := by
  have hpos : 1 ≤ pathByteLen p.components := by
    rw [← VirtualPath.length_asBytes]
    have hne : p.asBytes ≠ [] := by
      intro hnil
      have hhead := p.head?_asBytes
      rw [hnil] at hhead
      cases hhead
    exact List.length_pos_of_ne_nil hne
  rw [VirtualPath.length_asBytes]
  exact max_eq_left hpos

theorem fromAbsolute_asBytes (p : VirtualPath) : fromAbsolute p.stored.asBytes = .ok p.stored := by
  have hparse : VirtualPath.fromAbsoluteWithLimit p.asBytes defaultMaxPathBytes = .ok p :=
    VirtualPath.fromAbsolute_asBytes p
  unfold fromAbsolute
  rw [asBytes_eq, fromAbsoluteWithLimit_eq, hparse]
  rfl

theorem parent_join {p : VirtualPath} {q : StoredPath} {name : VirtualFileName}
    (h : p.stored.join name = .ok q) : q.parent = .ok (some p.stored) := by
  rw [join_eq] at h
  cases hjoin : p.join name with
  | error e =>
    rw [hjoin] at h
    cases h
  | ok r =>
    rw [hjoin] at h
    cases h
    have hcomponents : r.components = p.components ++ [name] := VirtualPath.fromComponents_ok hjoin
    have hparent : r.parent = some p := by
      unfold VirtualPath.parent
      rw [if_neg (by simp [hcomponents])]
      exact congrArg some (VirtualPath.ext (by simp [hcomponents]))
    rw [parent_eq, hparent]
    rfl

theorem startsWith_iff_stripPrefix (p pre : VirtualPath) :
    p.stored.startsWith pre.stored = true ↔
      ∃ r, p.stored.stripPrefix pre.stored = .ok (some r) ∧
        pre.stored.components ++ r.components = p.stored.components := by
  have hstarts : p.stored.startsWith pre.stored = p.startsWith pre := rfl
  rw [hstarts, stripPrefix_eq]
  constructor
  · intro h
    obtain ⟨rest, hrest⟩ := VirtualPath.startsWith_iff.mp h
    rw [VirtualPath.stripPrefix, if_pos h]
    refine ⟨_, rfl, ?_⟩
    change pre.components ++ p.components.drop pre.components.length = p.components
    rw [← hrest, List.drop_left]
  · rintro ⟨r, -, hsplit⟩
    exact VirtualPath.startsWith_iff.mpr ⟨r.components, hsplit⟩

/-- **The laws of a path**, for everything the operations yield: the stored length is
that of the text and within the bound, printing is undone by parsing, joining by
`parent`, a prefix is what can be stripped, and no `expect` fires. -/
theorem path_laws {p : StoredPath} (hp : Obtainable p) :
    (p.byteLen = p.asBytes.length ∧ p.byteLength = p.asBytes.length ∧
        p.byteLength ≤ defaultMaxPathBytes) ∧
      fromAbsolute p.asBytes = .ok p ∧
      (∀ name q, p.join name = .ok q → q.parent = .ok (some p)) ∧
      (∀ pre, Obtainable pre → (p.startsWith pre = true ↔
        ∃ r, p.stripPrefix pre = .ok (some r) ∧ pre.components ++ r.components = p.components)) ∧
      (∃ parent, p.parent = .ok parent) ∧
      (∀ pre, Obtainable pre → ∃ rest, p.stripPrefix pre = .ok rest) ∧
      ∀ bytes maxBytes message,
        fromAbsoluteWithLimit bytes maxBytes ≠ .error (.panicked message) := by
  obtain ⟨p, rfl⟩ := stored_of_obtainable hp
  refine ⟨⟨?_, ?_, ?_⟩, fromAbsolute_asBytes p, fun _ _ => parent_join, ?_,
    ⟨_, parent_eq p⟩, ?_, ?_⟩
  · rw [asBytes_eq, VirtualPath.length_asBytes]
    rfl
  · rw [asBytes_eq, byteLength_eq]
  · rw [byteLength_eq, VirtualPath.length_asBytes]
    exact p.bounded
  · intro pre hpre
    obtain ⟨pre, rfl⟩ := stored_of_obtainable hpre
    exact startsWith_iff_stripPrefix p pre
  · intro pre hpre
    obtain ⟨pre, rfl⟩ := stored_of_obtainable hpre
    exact ⟨_, stripPrefix_eq p pre⟩
  · intro bytes maxBytes message h
    rw [fromAbsoluteWithLimit_eq] at h
    cases hparse : VirtualPath.fromAbsoluteWithLimit bytes maxBytes <;> rw [hparse] at h <;> cases h

/-- The laws at the path that `/a/./b/../c` is read as. -/
theorem path_laws_normalized :
    ∃ p, fromAbsolute (ascii "/a/./b/../c") = .ok p ∧ p.byteLength = 4 ∧
      p.byteLength = p.asBytes.length ∧ fromAbsolute p.asBytes = .ok p := by
  have hparse : fromAbsolute (ascii "/a/./b/../c") = .ok (pathOf "/a/c").stored := by decide
  have hlaws := path_laws (.fromAbsolute hparse)
  exact ⟨_, hparse, by decide, hlaws.1.2.1, hlaws.2.1⟩

end StoredPath

end TuxStack.Vfs
