import TuxStack.FsHelper.Listing

/-!
# Path tokens of the daemon and of the helper

A token is made by the daemon (`path_token` of `crates/docker-core/src/vfs_providers/support.rs`)
and by the helper (`child_token` of `crates/tuxstack-fs-helper/src/path.rs`), and decoded by
`FilesystemPathToken` of `crates/tuxstack-fs-protocol/src/lib.rs`. Both make the same token for
the same path, which is decoded to the names of the path, and nothing else is decoded
(`helper_tokens`).
-/

namespace TuxStack.FsHelper

open Vfs Separated

/-! ## The token of a path -/

/-- The loop of `path_token`: a slash before every component but the first. -/
def pathRelative (components : List VirtualFileName) : Bytes :=
  components.zipIdx.foldl (fun relative entry =>
    (if entry.2 ≠ 0 then relative ++ [slash] else relative) ++ entry.1.bytes) []

def pathToken (path : VirtualPath) : Except VfsError Bytes :=
  (encodeRelative (pathRelative path.components)).mapError fun _ =>
    .invalidInput "invalid helper path"

def pathNames (path : VirtualPath) : List Bytes := path.components.map (·.bytes)

/-! ## What is decoded -/

/-- A name that a token can have in it. -/
structure TokenName (name : Bytes) : Prop where
  nonempty : name ≠ []
  noNul : 0 ∉ name
  noSlash : slash ∉ name
  notSelf : name ≠ [dot]
  notParent : name ≠ [dot, dot]

/-- Nothing, or names with slashes between them. -/
def RelativePath (relative : Bytes) : Prop :=
  relative = [] ∨ ∃ names, names ≠ [] ∧ (∀ name ∈ names, TokenName name) ∧
    relative = [slash].intercalate names

theorem ne_nil_of_names {names : List Bytes} (hne : names ≠ [])
    (h : ∀ name ∈ names, TokenName name) : [slash].intercalate names ≠ [] := by
  obtain ⟨first, names, rfl⟩ := List.exists_cons_of_ne_nil hne
  rw [intercalate_cons]
  exact List.append_ne_nil_of_left_ne_nil (h first List.mem_cons_self).nonempty _

/-- **The validator** takes names with slashes between them, and nothing else. -/
theorem validateRelative_iff_relativePath {relative : Bytes} :
    validateRelative relative = .ok () ↔ RelativePath relative := by
  rw [validateRelative_iff]
  constructor
  · rintro (hnil | ⟨-, hnul, hparts⟩)
    · exact .inl hnil
    · have hsplit : [slash].intercalate (relative.splitOn slash) = relative :=
        List.intercalate_splitOn slash
      refine .inr ⟨relative.splitOn slash, List.splitOn_ne_nil _ _, fun name hname => ?_,
        hsplit.symm⟩
      obtain ⟨hparent, hself, hempty⟩ := hparts name hname
      refine ⟨hempty, fun hmem => hnul ?_, not_mem_of_mem_splitOn hname, hself, hparent⟩
      rw [← hsplit]
      exact (mem_intercalate (List.splitOn_ne_nil _ _)).mpr (.inr ⟨name, hname, hmem⟩)
  · rintro (hnil | ⟨names, hne, hnames, rfl⟩)
    · exact .inl hnil
    · refine .inr ⟨?_, ?_, ?_⟩
      · obtain ⟨first, names, rfl⟩ := List.exists_cons_of_ne_nil hne
        have hfirst := hnames first List.mem_cons_self
        rw [intercalate_cons, List.head?_append_of_ne_nil _ hfirst.nonempty]
        exact fun hhead => hfirst.noSlash (List.mem_of_mem_head? hhead)
      · intro hmem
        rcases (mem_intercalate hne).mp hmem with ⟨hzero, -⟩ | ⟨name, hname, hmem⟩
        · revert hzero
          decide
        · exact (hnames name hname).noNul hmem
      · rw [List.splitOn_intercalate slash (fun name hname => (hnames name hname).noSlash) hne]
        exact fun name hname =>
          ⟨(hnames name hname).notParent, (hnames name hname).notSelf, (hnames name hname).nonempty⟩

/-- **A token is decoded** when it has the version in front, base64 behind it, and that stands
for a relative path. -/
theorem decodeRelative_iff {token relative : Bytes} : decodeRelative token = .ok relative ↔
    tokenPrefix <+: token ∧ decodeBase64 (token.drop tokenPrefix.length) = .ok relative ∧
      RelativePath relative := by
  rw [← validateRelative_iff_relativePath]
  unfold decodeRelative
  constructor
  · intro h
    split at h
    · cases h
    · next hversion =>
      split at h
      · cases h
      · next bytes hbytes =>
        obtain ⟨⟨⟩, hvalid, h⟩ := Result.bind_eq_ok.mp h
        cases h
        exact ⟨not_not.mp hversion, hbytes, hvalid⟩
  · rintro ⟨hversion, hbytes, hvalid⟩
    rw [if_neg (not_not_intro hversion), hbytes]
    show (validateRelative relative).bind _ = _
    rw [hvalid]
    rfl

/-! ## What is encoded -/

theorem foldl_zipIdx (components : List VirtualFileName) : ∀ (front : Bytes) {n : Nat}, n ≠ 0 →
    (components.zipIdx n).foldl (fun relative entry =>
        (if entry.2 ≠ 0 then relative ++ [slash] else relative) ++ entry.1.bytes) front =
      front ++ (components.map (·.bytes)).flatMap fun name => slash :: name := by
  induction components with
  | nil =>
    intro front n _
    exact (List.append_nil front).symm
  | cons component components ih =>
    intro front n hn
    rw [List.zipIdx_cons, List.foldl_cons, ih _ (Nat.succ_ne_zero n), List.map_cons,
      List.flatMap_cons]
    dsimp only
    rw [if_pos hn, List.append_assoc, List.append_assoc, List.singleton_append, List.cons_append]

/-- **The text of a token** is the names of the path with slashes between them. -/
theorem pathRelative_eq (path : VirtualPath) :
    pathRelative path.components = [slash].intercalate (pathNames path) := by
  unfold pathRelative pathNames
  cases path.components with
  | nil => rfl
  | cons component components =>
    rw [List.zipIdx_cons, List.foldl_cons, foldl_zipIdx components _ (Nat.succ_ne_zero 0),
      List.map_cons, intercalate_cons]
    rfl

theorem tokenName_of_fileName (name : VirtualFileName) : TokenName name.bytes :=
  ⟨name.nonempty, name.noNul, name.noSlash, fun hself => name.notDots (.inl hself),
    fun hparent => name.notDots (.inr hparent)⟩

theorem tokenName_of_mem {path : VirtualPath} {name : Bytes} (h : name ∈ pathNames path) :
    TokenName name := by
  obtain ⟨component, -, rfl⟩ := List.mem_map.mp h
  exact tokenName_of_fileName component

theorem relativePath_pathNames (path : VirtualPath) :
    RelativePath ([slash].intercalate (pathNames path)) := by
  by_cases hnil : pathNames path = []
  · rw [hnil]
    exact .inl rfl
  · exact .inr ⟨pathNames path, hnil, fun name hname => tokenName_of_mem hname, rfl⟩

/-- **Every path has a token.** -/
theorem pathToken_eq (path : VirtualPath) : pathToken path =
    .ok (tokenPrefix ++ encodeBase64 ([slash].intercalate (pathNames path))) := by
  unfold pathToken encodeRelative
  rw [pathRelative_eq, validateRelative_iff_relativePath.mpr (relativePath_pathNames path)]
  rfl

theorem decodeRelative_pathToken {path : VirtualPath} {token : Bytes}
    (h : pathToken path = .ok token) :
    decodeRelative token = .ok ([slash].intercalate (pathNames path)) := by
  rw [pathToken_eq] at h
  cases h
  refine decodeRelative_iff.mpr ⟨List.prefix_append .., ?_, relativePath_pathNames path⟩
  rw [List.drop_left, decodeBase64_encode]

/-- **The helper's token of a child** is the daemon's. -/
theorem childToken_eq {parent path : VirtualPath} {name : VirtualFileName}
    (h : parent.join name = .ok path) :
    childToken ([slash].intercalate (pathNames parent)) name.bytes =
      .ok (tokenPrefix ++ encodeBase64 ([slash].intercalate (pathNames path))) := by
  have hnames : pathNames path = pathNames parent ++ [name.bytes] := by
    unfold pathNames
    rw [VirtualPath.fromComponents_ok h, List.map_append]
    rfl
  have hrelative : (if [slash].intercalate (pathNames parent) = [] then name.bytes
      else [slash].intercalate (pathNames parent) ++ slash :: name.bytes) =
        [slash].intercalate (pathNames path) := by
    rw [hnames]
    by_cases hnil : pathNames parent = []
    · rw [hnil, if_pos (show [slash].intercalate [] = [] from rfl)]
      exact (List.append_nil _).symm
    · rw [if_neg (ne_nil_of_names hnil fun name hname => tokenName_of_mem hname),
        intercalate_snoc _ hnil]
  unfold childToken encodeRelative
  rw [hrelative, validateRelative_iff_relativePath.mpr (relativePath_pathNames path)]
  rfl

/-- **Path tokens**: every path has one, which is decoded to its names with slashes between
them; the helper makes the same one for a name below a path; and what is decoded is nothing or
a list of names. -/
theorem helper_tokens :
    (∀ path, ∃ token, pathToken path = .ok token ∧
      decodeRelative token = .ok ([slash].intercalate (pathNames path))) ∧
    (∀ parent name path, parent.join name = .ok path →
      ∃ parentToken relative token, pathToken parent = .ok parentToken ∧
        decodeRelative parentToken = .ok relative ∧
          childToken relative name.bytes = .ok token ∧ pathToken path = .ok token) ∧
    ∀ token relative, decodeRelative token = .ok relative ↔
      tokenPrefix <+: token ∧ decodeBase64 (token.drop tokenPrefix.length) = .ok relative ∧
        RelativePath relative := by
  refine ⟨fun path => ⟨_, pathToken_eq path, decodeRelative_pathToken (pathToken_eq path)⟩,
    fun parent name path hjoin => ?_, fun token relative => decodeRelative_iff⟩
  exact ⟨_, _, _, pathToken_eq parent, decodeRelative_pathToken (pathToken_eq parent),
    childToken_eq hjoin, pathToken_eq path⟩

/-- The folder `etc`. -/
def etcName : VirtualFileName :=
  ⟨ascii "etc", by decide, by decide, by decide, by decide, by decide⟩

/-- The token of `etc`, as the daemon and the helper make it. -/
theorem etc_token :
    ∃ parentToken relative token, pathToken VirtualPath.root = .ok parentToken ∧
      decodeRelative parentToken = .ok relative ∧
        childToken relative etcName.bytes = .ok token ∧
          pathToken ⟨[etcName], by decide⟩ = .ok token :=
  helper_tokens.2.1 VirtualPath.root etcName ⟨[etcName], by decide⟩ (by decide)

end TuxStack.FsHelper
