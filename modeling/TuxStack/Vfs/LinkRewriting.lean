import TuxStack.Lib.Result
import TuxStack.Vfs.Symlink

/-!
# A link and its rewriting

`crates/tuxstack-vfs/src/symlink.rs` against `path.rs`. Two functions read the text of
a target: `from_absolute` builds a path piece by piece and checks the length of every
path on the way, `resolve_target` collects the components and checks once. A text that
fits the bound never has a longer path on the way (`foldlM_absorb`), so on absolute
targets they are one function, errors included. `rewriteSymlink_preserves` follows.
-/

namespace TuxStack.Vfs

/-! ## The two normalizers -/

/-- The length of the text of some components, without the slash of the root. -/
def textLen (components : List VirtualFileName) : Nat :=
  (components.map fun c => c.bytes.length + 1).sum

theorem pathByteLen_le_textLen (cs : List VirtualFileName) :
    pathByteLen cs ≤ max 1 (textLen cs) := by
  by_cases h : cs = []
  · simp [h, pathByteLen]
  · rw [pathByteLen_of_ne_nil h]
    exact le_max_right _ _

theorem textLen_append (cs ds : List VirtualFileName) :
    textLen (cs ++ ds) = textLen cs + textLen ds := by
  simp [textLen]

/-- Splitting at slashes loses one byte for every piece but the first. -/
theorem length_splitOn_slash (bytes : Bytes) :
    ((bytes.splitOn slash).map fun piece => piece.length + 1).sum = bytes.length + 1 := by
  induction bytes with
  | nil => rfl
  | cons b rest ih =>
    rw [List.splitOn_cons_eq_if_modifyHead]
    split
    · simp [ih, Nat.add_comm]
    · obtain ⟨first, others, hsplit⟩ :=
        List.exists_cons_of_ne_nil (List.splitOn_ne_nil slash rest)
      rw [hsplit] at ih ⊢
      simp only [List.modifyHead_cons, List.map_cons, List.sum_cons, List.length_cons] at ih ⊢
      omega

theorem length_pieces {bytes : Bytes} (h : bytes.head? = some slash) :
    (((bytes.splitOn slash).drop 1).map fun piece => piece.length + 1).sum = bytes.length := by
  obtain ⟨rest, rfl⟩ : ∃ rest, bytes = slash :: rest := by
    cases bytes with
    | nil => cases h
    | cons b rest => exact ⟨rest, by simpa using h⟩
  rw [List.splitOn_cons_eq_if_modifyHead]
  have hlen := length_splitOn_slash rest
  simpa using hlen

theorem textLen_resolveStep {cs out : List VirtualFileName} {raw : Bytes}
    (h : resolveStep cs raw = .ok out) : textLen out ≤ textLen cs + (raw.length + 1) := by
  unfold resolveStep at h
  split at h
  · cases h
    omega
  · split at h
    · split at h
      · cases h
      · cases h
        have hle : textLen cs.dropLast ≤ textLen cs :=
          ((List.dropLast_sublist _).map _).sum_le_sum (by simp)
        omega
    · obtain ⟨name, hname, h⟩ := Result.bind_eq_ok.mp h
      cases h
      rw [textLen_append, ← VirtualFileName.bytes_of_new hname]
      simp [textLen]

theorem absorb_eq (path : VirtualPath) (raw : Bytes) :
    path.absorb raw = (resolveStep path.components raw >>= VirtualPath.fromComponents) := by
  unfold VirtualPath.absorb resolveStep VirtualPath.parent VirtualPath.join
  split
  · exact (VirtualPath.fromComponents_components path).symm
  · change (if raw = dotDot then _ else _) = _
    split
    · by_cases hroot : path.components = []
      · rw [if_pos hroot, if_pos hroot]
        rfl
      · rw [if_neg hroot, if_neg hroot]
        have hfits : pathByteLen path.components.dropLast ≤ defaultMaxPathBytes :=
          VirtualPath.bounded_sublist (List.dropLast_sublist path.components)
        change Except.ok ⟨path.components.dropLast, hfits⟩ =
          VirtualPath.fromComponents path.components.dropLast
        rw [VirtualPath.fromComponents, dif_pos hfits]
    · cases VirtualFileName.new raw <;> rfl

/-- **The loops agree**: while the path built so far and the pieces still to come fit
the bound together, building a path piece by piece is collecting the components. -/
theorem foldlM_absorb : ∀ (raws : List Bytes) (path : VirtualPath),
    textLen path.components + (raws.map fun raw => raw.length + 1).sum ≤ defaultMaxPathBytes →
      raws.foldlM VirtualPath.absorb path =
        (raws.foldlM resolveStep path.components >>= VirtualPath.fromComponents) := by
  intro raws
  induction raws with
  | nil =>
    intro path _
    exact (VirtualPath.fromComponents_components path).symm
  | cons raw raws ih =>
    intro path hfits
    rw [List.map_cons, List.sum_cons] at hfits
    rw [List.foldlM_cons, List.foldlM_cons, absorb_eq]
    cases hstep : resolveStep path.components raw with
    | error e => rfl
    | ok out =>
      have hgrow := textLen_resolveStep hstep
      have hbounded : pathByteLen out ≤ defaultMaxPathBytes :=
        (pathByteLen_le_textLen out).trans (max_le (by decide) (by omega))
      change (VirtualPath.fromComponents out >>= fun next => raws.foldlM _ next) = _
      rw [VirtualPath.fromComponents, dif_pos hbounded]
      exact ih ⟨out, hbounded⟩ (by simp only; omega)

/-- **One normalizer**: on an absolute target, resolving it from any directory and
reading it as a path give the same path or the same error. -/
theorem resolveTarget_absolute {target : VirtualPathBytes} (habs : target.isAbsolute = true)
    (parent : VirtualPath) :
    resolveTarget parent target = VirtualPath.fromAbsolute target.bytes := by
  have hslash : target.bytes.head? = some slash := of_decide_eq_true habs
  unfold VirtualPath.fromAbsolute VirtualPath.fromAbsoluteWithLimit
  rw [if_neg target.noNul, if_neg (not_not_intro hslash), if_neg (Nat.not_lt.mpr target.short)]
  simp only [resolveTarget, pieces, habs, if_true]
  refine (foldlM_absorb _ VirtualPath.root ?_).symm
  rw [length_pieces hslash]
  simpa [VirtualPath.root, textLen] using target.short

/-- **Rewriting keeps what a link means**, and an absolute target has one meaning. -/
theorem rewriteSymlink_preserves :
    (∀ (link parent : VirtualPath) (target rewritten : VirtualPathBytes),
      link.parent = some parent → rewriteSymlink link target = .ok rewritten →
        rewritten.isAbsolute = false ∧
        resolveTarget parent rewritten = resolveTarget parent target ∧
        (target.isAbsolute = false → rewritten = target)) ∧
    ∀ (parent : VirtualPath) (target : VirtualPathBytes), target.isAbsolute = true →
      resolveTarget parent target = VirtualPath.fromAbsolute target.bytes := by
  refine ⟨fun link parent target rewritten hparent h => ?_,
    fun parent target habs => resolveTarget_absolute habs parent⟩
  cases habs : target.isAbsolute with
  | false =>
    obtain ⟨_, _, -, -, rfl⟩ := rewriteSymlink_relative habs h
    exact ⟨habs, rfl, fun _ => rfl⟩
  | true =>
    obtain ⟨parent', q, hp, hq, hbytes⟩ := rewriteSymlink_absolute habs h
    cases hparent.symm.trans hp
    refine ⟨(relText_pieces hbytes).1, ?_, fun hrel => by cases hrel⟩
    rw [resolveTarget_absolute habs, hq, resolveTarget_relText hbytes, if_pos le_rfl]
    simp

/-- `/a/b/link -> /c/../d` is rewritten to `../../d`. -/
theorem rewriteSymlink_preserves_nested :
    rewriteSymlink (pathOf "/a/b/link") (targetOf "/c/../d") = .ok (targetOf "../../d") ∧
      resolveTarget (pathOf "/a/b") (targetOf "../../d") =
        resolveTarget (pathOf "/a/b") (targetOf "/c/../d") ∧
      resolveTarget (pathOf "/a/b") (targetOf "/c/../d") =
        VirtualPath.fromAbsolute (ascii "/c/../d") :=
  ⟨by decide,
    (rewriteSymlink_preserves.1 (pathOf "/a/b/link") (pathOf "/a/b") (targetOf "/c/../d")
      (targetOf "../../d") (by decide) (by decide)).2.1,
    rewriteSymlink_preserves.2 (pathOf "/a/b") (targetOf "/c/../d") (by decide)⟩

end TuxStack.Vfs
