import TuxStack.Lib.LexicalPath
import TuxStack.Vfs.Path

/-!
# Symbolic links

`crates/tuxstack-vfs/src/symlink.rs`. `resolveTarget` walks a target from the
directory of the link, `rewriteSymlink` turns an absolute target into as many
`..` as the link's directory is deep followed by the target's components.

The general facts come from `Lib/LexicalPath`: `segs` reads the pieces between
the slashes as up and down moves, `resolve_walk` says that a successful
resolution is the lexical walk of those moves, and `resolveTarget_relText`
evaluates a rewritten link from any directory, not only from the one it was
written for.
-/

namespace TuxStack.Vfs

open Lexical

/-! ## The two functions -/

def dotDot : Bytes := [dot, dot]

/-- The loop body of `resolve_target` on one piece between slashes. -/
def resolveStep (components : List VirtualFileName) (raw : Bytes) :
    Except VfsError (List VirtualFileName) :=
  if raw = [] ∨ raw = [dot] then .ok components
  else if raw = dotDot then
    if components = [] then .error .symlinkEscape else .ok components.dropLast
  else do
    let name ← VirtualFileName.new raw
    .ok (components ++ [name])

/-- The pieces `resolve_target` iterates over: the empty piece before the
leading slash of an absolute target is skipped. -/
def pieces (target : VirtualPathBytes) : List Bytes :=
  (target.bytes.splitOn slash).drop (if target.isAbsolute then 1 else 0)

def resolveTarget (linkParent : VirtualPath) (target : VirtualPathBytes) :
    Except VfsError VirtualPath := do
  let start := if target.isAbsolute then [] else linkParent.components
  let components ← (pieces target).foldlM resolveStep start
  VirtualPath.fromComponents components

/-- Append a piece to a relative path under construction, with a slash between
pieces. -/
def pushPiece (rewritten piece : Bytes) : Bytes :=
  (if rewritten = [] then [] else rewritten ++ [slash]) ++ piece

/-- The text `rewrite_symlink` builds: `depth` times `..`, then the components,
and `.` when there is nothing to write. -/
def relText (depth : Nat) (components : List VirtualFileName) : Bytes :=
  let ups := (List.replicate depth dotDot).foldl pushPiece []
  let rewritten := (components.map VirtualFileName.bytes).foldl pushPiece ups
  if rewritten = [] then [dot] else rewritten

def rewriteSymlink (linkPath : VirtualPath) (target : VirtualPathBytes) :
    Except VfsError VirtualPathBytes :=
  match linkPath.parent with
  | none => .error (.invalidInput "resource root cannot be a symlink")
  | some parent => do
      let _ ← resolveTarget parent target
      if target.isAbsolute then
        let normalizedTarget ← VirtualPath.fromAbsolute target.bytes
        VirtualPathBytes.new (relText parent.depth normalizedTarget.components)
      else .ok target

/-! ## Resolution is a lexical walk -/

/-- Reading a piece as a move; `.` and empty pieces do not move. -/
def seg (raw : Bytes) : Option (Seg Bytes) :=
  if raw = [] ∨ raw = [dot] then none
  else if raw = dotDot then some .up
  else some (.down raw)

def segs (raws : List Bytes) : List (Seg Bytes) := raws.filterMap seg

/-- The byte strings of a list of names. -/
abbrev texts (components : List VirtualFileName) : List Bytes :=
  components.map VirtualFileName.bytes

theorem texts_injective : Function.Injective texts :=
  List.map_injective_iff.mpr fun _ _ h => VirtualFileName.ext h

theorem texts_prefix_iff {cs ds : List VirtualFileName} :
    texts cs <+: texts ds ↔ cs <+: ds :=
  List.prefix_map_iff_of_injective fun _ _ h => VirtualFileName.ext h

theorem resolveStep_move {cs out : List VirtualFileName} {raw : Bytes}
    (h : resolveStep cs raw = .ok out) :
    walk (texts cs) (seg raw).toList = some (texts out) := by
  unfold resolveStep at h
  unfold seg
  split at h
  · rename_i hskip
    cases h
    simp [hskip]
  · rename_i hskip
    split at h
    · rename_i hup
      rw [if_neg hskip, if_pos hup]
      split at h
      · cases h
      · rename_i hne
        cases h
        simp [walk, move, hne]
    · rename_i hup
      rw [if_neg hskip, if_neg hup]
      cases hn : VirtualFileName.new raw with
      | error e =>
        rw [hn] at h
        cases h
      | ok name =>
        rw [hn] at h
        cases h
        simp [walk, move, VirtualFileName.bytes_of_new hn]

/-- **Resolution is a walk**: when the loop of `resolve_target` succeeds, its
result is the lexical walk of the pieces. -/
theorem resolve_walk : ∀ {raws : List Bytes} {cs out : List VirtualFileName},
    raws.foldlM resolveStep cs = .ok out →
      walk (texts cs) (segs raws) = some (texts out)
  | [], cs, out, h => by
      cases h
      rfl
  | raw :: raws, cs, out, h => by
      rw [List.foldlM_cons] at h
      cases hstep : resolveStep cs raw with
      | error e =>
        rw [hstep] at h
        cases h
      | ok mid =>
        rw [hstep] at h
        have hsegs : segs (raw :: raws) = (seg raw).toList ++ segs raws := by
          unfold segs
          cases hs : seg raw <;> simp [hs]
        rw [hsegs, walk_append, resolveStep_move hstep]
        exact resolve_walk h

/-! ## Rewritten links -/

theorem slash_not_mem_dotDot : slash ∉ dotDot := by decide

theorem resolveStep_dotDot (cs : List VirtualFileName) :
    resolveStep cs dotDot = if cs = [] then .error .symlinkEscape else .ok cs.dropLast := by
  unfold resolveStep
  rw [if_neg (by decide), if_pos rfl]

theorem resolveStep_name (cs : List VirtualFileName) (name : VirtualFileName) :
    resolveStep cs name.bytes = .ok (cs ++ [name]) := by
  unfold resolveStep
  have h₁ : ¬ (name.bytes = [] ∨ name.bytes = [dot]) := by
    rintro (h | h)
    · exact name.nonempty h
    · exact name.notDots (.inl h)
  have h₂ : name.bytes ≠ dotDot := fun h => name.notDots (.inr h)
  rw [if_neg h₁, if_neg h₂, VirtualFileName.new_bytes]
  rfl

theorem resolve_ups : ∀ (k : Nat) (cs : List VirtualFileName),
    (List.replicate k dotDot).foldlM resolveStep cs =
      if k ≤ cs.length then .ok (cs.take (cs.length - k)) else .error .symlinkEscape
  | 0, cs => by simp [pure, Except.pure]
  | k + 1, cs => by
      rw [List.replicate_succ, List.foldlM_cons, resolveStep_dotDot]
      by_cases hcs : cs = []
      · subst hcs
        rw [if_pos rfl, if_neg (by simp)]
        rfl
      · rw [if_neg hcs]
        change (List.replicate k dotDot).foldlM resolveStep cs.dropLast = _
        have hpos : 0 < cs.length := List.length_pos_of_ne_nil hcs
        rw [resolve_ups k, List.length_dropLast]
        by_cases hk : k + 1 ≤ cs.length
        · rw [if_pos (by omega), if_pos hk, List.dropLast_eq_take, List.take_take]
          congr 2
          omega
        · rw [if_neg (by omega), if_neg hk]

theorem resolve_names : ∀ (names cs : List VirtualFileName),
    (texts names).foldlM resolveStep cs = .ok (cs ++ names)
  | [], cs => by simp [pure, Except.pure]
  | name :: names, cs => by
      rw [texts, List.map_cons, List.foldlM_cons, resolveStep_name]
      change (texts names).foldlM resolveStep (cs ++ [name]) = _
      rw [resolve_names names]
      simp

theorem splitOn_pushPiece : ∀ {ps : List Bytes}, ps ≠ [] →
    (∀ p ∈ ps, p ≠ [] ∧ slash ∉ p) →
      (ps.foldl pushPiece []).splitOn slash = ps ∧ ps.foldl pushPiece [] ≠ [] := by
  intro ps hne hps
  induction ps using List.reverseRecOn with
  | nil => exact absurd rfl hne
  | append_singleton ps p ih =>
    rw [List.foldl_append, List.foldl_cons, List.foldl_nil]
    obtain ⟨hp, hslash⟩ := hps p (by simp)
    by_cases hnil : ps = []
    · subst hnil
      simp [pushPiece, List.splitOn_eq_singleton hslash, hp]
    · obtain ⟨hsplit, hacc⟩ := ih hnil fun q hq => hps q (by simp [hq])
      refine ⟨?_, by simp [pushPiece, hacc]⟩
      simp only [pushPiece, if_neg hacc, List.append_assoc, List.singleton_append]
      rw [List.splitOn_append_cons_self, hsplit, List.splitOn_eq_singleton hslash]

/-- The pieces `relText` puts together. -/
def relPieces (depth : Nat) (components : List VirtualFileName) : List Bytes :=
  List.replicate depth dotDot ++ texts components

variable {r : VirtualPathBytes} {components : List VirtualFileName} {depth : Nat}

theorem relPieces_spec {p : Bytes} (hp : p ∈ relPieces depth components) : p ≠ [] ∧ slash ∉ p := by
  rcases List.mem_append.mp hp with hp | hp
  · rw [List.eq_of_mem_replicate hp]
    exact ⟨by decide, slash_not_mem_dotDot⟩
  · obtain ⟨name, -, rfl⟩ := List.mem_map.mp hp
    exact ⟨name.nonempty, name.noSlash⟩

theorem relText_eq (depth : Nat) (components : List VirtualFileName) :
    relText depth components =
      if (relPieces depth components).foldl pushPiece [] = [] then [dot]
      else (relPieces depth components).foldl pushPiece [] := by
  simp [relText, relPieces, List.foldl_append]

/-- Resolving the pieces of a rewritten link: climb, then descend. -/
theorem foldlM_relPieces (depth : Nat) (components cs : List VirtualFileName) :
    (relPieces depth components).foldlM resolveStep cs =
      if depth ≤ cs.length then .ok (cs.take (cs.length - depth) ++ components)
      else .error .symlinkEscape := by
  rw [relPieces, List.foldlM_append, resolve_ups]
  split
  · exact resolve_names _ _
  · rfl

/-- A rewritten link is relative, and its pieces resolve like `relPieces`. -/
theorem relText_pieces (hr : r.bytes = relText depth components) :
    r.isAbsolute = false ∧ ∀ cs, (pieces r).foldlM resolveStep cs =
      (relPieces depth components).foldlM resolveStep cs := by
  by_cases hnil : relPieces depth components = []
  · have hbytes : r.bytes = [dot] := by simp [hr, relText_eq, hnil]
    have habs : r.isAbsolute = false := by
      rw [VirtualPathBytes.isAbsolute, hbytes]
      decide
    refine ⟨habs, fun cs => ?_⟩
    have hp : pieces r = [[dot]] := by
      rw [pieces, habs, hbytes]
      decide
    rw [hp, hnil]
    rfl
  · obtain ⟨hsplit, hne⟩ := splitOn_pushPiece hnil fun p hp => relPieces_spec hp
    have hbytes : r.bytes = (relPieces depth components).foldl pushPiece [] := by
      rw [hr, relText_eq, if_neg hne]
    -- an absolute text would start with an empty piece
    have habs : r.isAbsolute = false := by
      rw [VirtualPathBytes.isAbsolute, hbytes]
      cases htext : (relPieces depth components).foldl pushPiece [] with
      | nil => exact absurd htext hne
      | cons b rest =>
        simp only [List.head?_cons, Option.some.injEq, decide_eq_false_iff_not]
        rintro rfl
        have hempty : ([] : Bytes) ∈ relPieces depth components := by
          rw [← hsplit, htext, List.splitOn_cons_eq_if_modifyHead]
          simp
        exact (relPieces_spec hempty).1 rfl
    refine ⟨habs, fun cs => ?_⟩
    have hp : pieces r = relPieces depth components := by
      rw [pieces, habs, hbytes, hsplit]
      rfl
    rw [hp]

/-- **A rewritten link from any directory**: the text written for a directory
of depth `depth` climbs that many levels from wherever it is resolved. -/
theorem resolveTarget_relText (hr : r.bytes = relText depth components) (base : VirtualPath) :
    resolveTarget base r =
      if depth ≤ base.depth then
        VirtualPath.fromComponents
          (base.components.take (base.depth - depth) ++ components)
      else .error .symlinkEscape := by
  obtain ⟨habs, hfold⟩ := relText_pieces hr
  simp only [resolveTarget, habs, Bool.false_eq_true, if_false]
  rw [hfold, foldlM_relPieces]
  unfold VirtualPath.depth
  split <;> rfl

theorem rewriteSymlink_absolute {p : VirtualPath} {t : VirtualPathBytes} (ht : t.isAbsolute = true)
    (h : rewriteSymlink p t = .ok r) :
    ∃ parent q, p.parent = some parent ∧ VirtualPath.fromAbsolute t.bytes = .ok q ∧
      r.bytes = relText parent.depth q.components := by
  unfold rewriteSymlink at h
  cases hp : p.parent with
  | none => simp [hp] at h
  | some parent =>
    rw [hp] at h
    simp only [ht, if_true] at h
    cases hres : resolveTarget parent t with
    | error e =>
      rw [hres] at h
      cases h
    | ok q₀ =>
      rw [hres] at h
      cases hq : VirtualPath.fromAbsolute t.bytes with
      | error e =>
        rw [hq] at h
        cases h
      | ok q =>
        rw [hq] at h
        exact ⟨parent, q, rfl, rfl, VirtualPathBytes.bytes_of_new h⟩

theorem rewriteSymlink_relative {p : VirtualPath} {t : VirtualPathBytes} (ht : t.isAbsolute = false)
    (h : rewriteSymlink p t = .ok r) :
    ∃ parent q, p.parent = some parent ∧ resolveTarget parent t = .ok q ∧ r = t := by
  unfold rewriteSymlink at h
  cases hp : p.parent with
  | none => simp [hp] at h
  | some parent =>
    rw [hp] at h
    simp only [ht, Bool.false_eq_true, if_false] at h
    cases hres : resolveTarget parent t with
    | error e =>
      rw [hres] at h
      cases h
    | ok q =>
      rw [hres] at h
      cases h
      exact ⟨parent, q, rfl, hres, rfl⟩

end TuxStack.Vfs
