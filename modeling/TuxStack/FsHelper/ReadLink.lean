import TuxStack.FsHelper.Confinement

/-!
# Tokens for absolute paths

`token_under_root` of `crates/tuxstack-fs-helper/src/path.rs`, which turns the canonical path
of a link's target into a token below the browse root, and the `readlink` command that
sends it.

The root is taken off the path by its bytes. So a path beside the root, whose next name only
begins like the last name of the root, gets a token too, and it is that of a file in the
root. `token_names_path_iff` is when the token tells the truth.
-/

namespace TuxStack.FsHelper

open Vfs Files Result Separated

/-- What is left of a path once the root is taken off its front. -/
def relativeUnderRoot (root absolute : Bytes) : Except HelperErrorCode Bytes :=
  if absolute = root then .ok []
  else if root <+: absolute then
    let rest := absolute.drop root.length
    let rest := if rest.head? = some slash then rest.tail else rest
    if rest = [] then .ok [] else .ok rest
  else .error .pathEscapeRejected

def tokenUnderRoot (root absolute : Bytes) : Except HelperErrorCode Bytes := do
  let relative ← relativeUnderRoot root absolute
  liftToken (encodeRelative relative)

/-- `run_readlink`: the token it sends. -/
def readlinkToken (t : FileTree) (rounds : Nat) (flags : Flags) :
    Option (Except HelperErrorCode Bytes) :=
  match resolveToken flags.root flags.token with
  | .error code => some (.error code)
  | .ok path => (canonicalize t rounds path).map fun canonical =>
    canonical.bind fun canonical => tokenUnderRoot flags.root canonical

/-- An absolute path that `normalize` leaves as it is. -/
structure IsNormal (path : Bytes) : Prop where
  isAbsolute : isAbsolute path = true
  normalize_eq : normalize path = path

def AtOrBelow (root path : Bytes) : Prop := components root <+: components path

/-- The token of a path below the root, and only it, is there and names the path. -/
structure TokenNames (root path : Bytes) : Prop where
  answered : (∃ token, tokenUnderRoot root path = .ok token) ↔ AtOrBelow root path
  named : ∀ token, tokenUnderRoot root path = .ok token → resolveToken root token = .ok path

/-- What follows the bytes of the root in a path: no zero if the path is below the root, and
something that no token can have if it is not. -/
structure BytesTell (root path : Bytes) : Prop where
  below : AtOrBelow root path → ∀ rest, path = root ++ rest → 0 ∉ rest
  beside : ¬ AtOrBelow root path → ∀ rest, path = root ++ rest →
    0 ∈ rest ∨ (rest.splitOn slash).head? = some [dot] ∨
      (rest.splitOn slash).head? = some [dot, dot]

/-! ## Normal paths -/

theorem foldl_names (names : List Name) : ∀ out : List Component,
    (names.map .normal).foldl normalizeStep out = out ++ names.map .normal := by
  induction names with
  | nil => exact fun out => (List.append_nil out).symm
  | cons name names ih =>
    intro out
    rw [List.map_cons, List.foldl_cons, ih]
    simp [normalizeStep]

theorem isNormal_absolute {names : List Name} (h : ∀ name ∈ names, PlainName name) :
    IsNormal (absolute names) := by
  refine ⟨isAbsolute_absolute names, normalize_of_out h ?_⟩
  rw [components_absolute h, List.foldl_cons, foldl_names]
  rfl

theorem IsNormal.names {path : Bytes} (h : IsNormal path) :
    ∃ names : List Name, (∀ name ∈ names, PlainName name) ∧ path = absolute names := by
  obtain ⟨names, hnames, hpath⟩ := normalize_absolute h.isAbsolute
  exact ⟨names, hnames, h.normalize_eq ▸ hpath⟩

section Paths

variable {rootNames names : List Name} (hroot : ∀ name ∈ rootNames, PlainName name)
  (hnames : ∀ name ∈ names, PlainName name)

include hroot hnames

theorem atOrBelow_absolute : AtOrBelow (absolute rootNames) (absolute names) ↔
    rootNames <+: names := by
  unfold AtOrBelow
  rw [components_absolute hroot, components_absolute hnames, List.cons_prefix_cons]
  refine ⟨fun h => ?_, fun h => ⟨rfl, h.map _⟩⟩
  exact (List.prefix_map_iff_of_injective fun _ _ hsame => Component.normal.inj hsame).mp h.2

end Paths

/-! ## What a token can be made of -/

theorem encodeRelative_isOk {bytes : Bytes} :
    (∃ token, liftToken (encodeRelative bytes) = .ok token) ↔ validateRelative bytes = .ok () := by
  constructor
  · rintro ⟨token, h⟩
    obtain ⟨⟨⟩, hvalid, -⟩ := bind_eq_ok.mp (liftToken_eq_ok.mp h)
    exact hvalid
  · intro h
    exact ⟨_, liftToken_eq_ok.mpr (bind_eq_ok.mpr ⟨(), h, rfl⟩)⟩

/-- The bytes that the token of a path is made of, once the root is taken off. -/
theorem tokenUnderRoot_append {root rest : Bytes} (h : rest ≠ []) :
    tokenUnderRoot root (root ++ rest) =
      liftToken (encodeRelative (if rest.head? = some slash then rest.tail else rest)) := by
  have hne : ¬ root ++ rest = root := fun heq => h (List.append_right_eq_self.mp heq)
  have hrelative : relativeUnderRoot root (root ++ rest) =
      .ok (if rest.head? = some slash then rest.tail else rest) := by
    unfold relativeUnderRoot
    rw [if_neg hne, if_pos (List.prefix_append _ _), List.drop_left]
    dsimp only
    generalize (if rest.head? = some slash then rest.tail else rest) = stripped
    split
    · next hnil => rw [hnil]
    · rfl
  unfold tokenUnderRoot
  rw [hrelative]
  rfl

theorem tokenUnderRoot_self (root : Bytes) :
    tokenUnderRoot root root = liftToken (encodeRelative []) := by
  unfold tokenUnderRoot relativeUnderRoot
  rw [if_pos rfl]
  rfl

theorem tokenUnderRoot_outside {root path : Bytes} (h : ¬ root <+: path) :
    tokenUnderRoot root path = .error .pathEscapeRejected := by
  have hne : ¬ path = root := by
    rintro rfl
    exact h List.prefix_rfl
  unfold tokenUnderRoot relativeUnderRoot
  rw [if_neg hne, if_neg h]
  rfl

theorem validateRelative_relative {more : List Name} (h : ∀ name ∈ more, PlainName name)
    (hne : more ≠ []) : validateRelative (relative more) = .ok () ↔ 0 ∉ relative more := by
  have hsplit : (relative more).splitOn slash = more := splitOn_relative h hne
  rw [validateRelative_iff, hsplit]
  constructor
  · rintro (hnil | ⟨-, hnul, -⟩)
    · simp [hnil]
    · exact hnul
  · intro hnul
    refine .inr ⟨head_relative h, hnul, fun part hpart => ?_⟩
    have hplain := h part hpart
    exact ⟨hplain.notParent, hplain.notSelf, hplain.nonempty⟩

/-! ## Below the root -/

section Below

variable {rootNames more : List Name} (hroot : ∀ name ∈ rootNames, PlainName name)
  (hmore : ∀ name ∈ more, PlainName name) (hne : more ≠ [])

include hmore hne in
theorem absolute_append : ∃ rest, absolute (rootNames ++ more) = absolute rootNames ++ rest ∧
    rest ≠ [] ∧ (if rest.head? = some slash then rest.tail else rest) = relative more ∧
    (0 ∈ rest ↔ 0 ∈ relative more) := by
  have hhead : (relative more).head? ≠ some slash := head_relative hmore
  have hslash : (0 : UInt8) ≠ slash := by decide
  have hwhole : absolute (rootNames ++ more) = below (rootNames ++ more) := by
    rw [absolute, if_neg (by simp [hne])]
  obtain ⟨name, names, rfl⟩ := List.exists_cons_of_ne_nil hne
  by_cases hnil : rootNames = []
  · subst hnil
    refine ⟨relative (name :: names), ?_, ?_, by rw [if_neg hhead], Iff.rfl⟩
    · rw [hwhole, List.nil_append, below_cons]
      rfl
    · simp [relative_cons, (hmore name List.mem_cons_self).nonempty]
  · refine ⟨below (name :: names), ?_, by simp [below_cons], ?_, ?_⟩
    · rw [hwhole, absolute, if_neg hnil]
      simp [below]
    · rw [below_cons]
      rfl
    · rw [below_cons]
      exact ⟨fun h => (List.mem_cons.mp h).resolve_left hslash, List.mem_cons_of_mem _⟩

include hroot hmore hne in
/-- A token for names below the root is resolved to the path through these names. -/
theorem resolveToken_relative {token : Bytes} (h : decodeRelative token = .ok (relative more)) :
    resolveToken (absolute rootNames) token = .ok (absolute (rootNames ++ more)) := by
  have hnonempty : relative more ≠ [] := by
    obtain ⟨name, names, rfl⟩ := List.exists_cons_of_ne_nil hne
    simp [relative_cons, (hmore name List.mem_cons_self).nonempty]
  have hbelow : below more = slash :: relative more := by
    obtain ⟨name, names, rfl⟩ := List.exists_cons_of_ne_nil hne
    exact below_cons name names
  refine bind_eq_ok.mpr ⟨relative more, liftToken_eq_ok.mpr h, ?_⟩
  have hwhole : absolute (rootNames ++ more) = below (rootNames ++ more) := by
    rw [absolute, if_neg (by simp [hne])]
  rw [if_neg hnonempty, hwhole]
  by_cases hnil : rootNames = []
  · subst hnil
    rw [List.nil_append, hbelow]
    rfl
  · have hrootPath : absolute rootNames = below rootNames := by rw [absolute, if_neg hnil]
    have hlast : (below rootNames).getLast? ≠ some slash := getLast_below hroot
    rw [hrootPath, if_neg hlast, ← hbelow]
    simp [below]

include hroot hmore hne in
theorem token_below : TokenNames (absolute rootNames) (absolute (rootNames ++ more)) ↔
    BytesTell (absolute rootNames) (absolute (rootNames ++ more)) := by
  obtain ⟨rest, hpath, hrest, hstrip, hzero⟩ := @absolute_append rootNames more hmore hne
  have hbelow : AtOrBelow (absolute rootNames) (absolute (rootNames ++ more)) := by
    refine (atOrBelow_absolute hroot fun name hname => ?_).mpr (List.prefix_append _ _)
    exact (List.mem_append.mp hname).elim (hroot name) (hmore name)
  have htoken : tokenUnderRoot (absolute rootNames) (absolute (rootNames ++ more)) =
      liftToken (encodeRelative (relative more)) := by
    rw [hpath, tokenUnderRoot_append hrest, hstrip]
  constructor
  · intro h
    refine ⟨fun _ rest' hrest' => ?_, fun hbeside => absurd hbelow hbeside⟩
    have hanswer := h.answered.mpr hbelow
    rw [htoken, encodeRelative_isOk, validateRelative_relative hmore hne] at hanswer
    rw [hpath] at hrest'
    rw [← List.append_cancel_left hrest', hzero]
    exact hanswer
  · intro h
    have hnul : 0 ∉ relative more := fun hmem => h.below hbelow rest hpath (hzero.mpr hmem)
    refine ⟨iff_of_true ?_ hbelow, fun token hok => ?_⟩
    · rw [htoken, encodeRelative_isOk, validateRelative_relative hmore hne]
      exact hnul
    · rw [htoken] at hok
      exact resolveToken_relative hroot hmore hne (decodeRelative_encode (liftToken_eq_ok.mp hok))

end Below

theorem token_at_root (rootNames : List Name) :
    TokenNames (absolute rootNames) (absolute rootNames) ∧
      BytesTell (absolute rootNames) (absolute rootNames) := by
  have hbelow : AtOrBelow (absolute rootNames) (absolute rootNames) := List.prefix_rfl
  refine ⟨⟨iff_of_true ?_ hbelow, fun token hok => ?_⟩, fun _ rest hrest => ?_,
    fun hbeside => absurd hbelow hbeside⟩
  · rw [tokenUnderRoot_self, encodeRelative_isOk]
    rfl
  · rw [tokenUnderRoot_self] at hok
    have hdecoded := decodeRelative_encode (liftToken_eq_ok.mp hok)
    exact bind_eq_ok.mpr ⟨[], liftToken_eq_ok.mpr hdecoded, rfl⟩
  · rw [List.self_eq_append_right.mp hrest]
    exact List.not_mem_nil

/-! ## Beside the root -/

section Beside

variable {rootNames names : List Name} (hroot : ∀ name ∈ rootNames, PlainName name)
  (hnames : ∀ name ∈ names, PlainName name) (hbeside : ¬ rootNames <+: names)

include hroot hnames hbeside in
/-- A path whose bytes begin with the root but which is not below it goes on in the middle
of a name. -/
theorem splitOn_beside {rest : Bytes} (hpath : absolute names = absolute rootNames ++ rest) :
    ∃ first parts, rest.splitOn slash = first :: parts ∧ first ≠ [] ∧
      ∀ part ∈ parts, PlainName part := by
  induction rootNames using List.reverseRecOn with
  | nil => exact absurd (List.nil_prefix) hbeside
  | append_singleton rootNames last _ =>
    have hlast := hroot last (by simp)
    have hfront : ∀ name ∈ rootNames, PlainName name := fun name hname =>
      hroot name (by simp [hname])
    have hsplit : absolute (rootNames ++ [last]) ++ rest =
        below rootNames ++ separator :: (last ++ rest) := by
      rw [absolute, if_neg (by simp)]
      simp [below]
    have hne : names ≠ [] := by
      rintro rfl
      rw [hsplit] at hpath
      have hlength := congrArg List.length hpath
      have hpos := List.length_pos_iff.mpr hlast.nonempty
      simp [absolute] at hlength
      omega
    obtain ⟨first, parts, hparts⟩ := List.exists_cons_of_ne_nil
      (List.splitOnP_ne_nil (· == slash) rest)
    have hrest : rest.splitOn slash = first :: parts := hparts
    have hall : names = rootNames ++ (last ++ first) :: parts := by
      have hwhole := splitOn_below hnames
      rw [show below names = absolute names by rw [absolute, if_neg hne], hpath, hsplit,
        List.splitOn_append_cons_self, splitOn_below hfront,
        splitOn_append hlast.noSeparator] at hwhole
      change ([] :: rootNames) ++ (rest.splitOn slash).modifyHead (last ++ ·) = _ at hwhole
      rw [hrest] at hwhole
      exact ((List.cons.inj hwhole).2).symm
    refine ⟨first, parts, hrest, ?_, fun part hpart => hnames part (by simp [hall, hpart])⟩
    rintro rfl
    refine hbeside ⟨parts, ?_⟩
    rw [hall]
    simp

include hroot hnames hbeside in
theorem token_beside : TokenNames (absolute rootNames) (absolute names) ↔
    BytesTell (absolute rootNames) (absolute names) := by
  have hnot : ¬ AtOrBelow (absolute rootNames) (absolute names) := fun h =>
    hbeside ((atOrBelow_absolute hroot hnames).mp h)
  have hnone : TokenNames (absolute rootNames) (absolute names) ↔
      ¬ ∃ token, tokenUnderRoot (absolute rootNames) (absolute names) = .ok token := by
    constructor
    · exact fun h hok => hnot (h.answered.mp hok)
    · exact fun h => ⟨iff_of_false h hnot, fun token hok => absurd ⟨token, hok⟩ h⟩
  rw [hnone]
  by_cases hprefix : absolute rootNames <+: absolute names
  · obtain ⟨rest, hpath⟩ := hprefix
    obtain ⟨first, parts, hrest, hfirst, hparts⟩ :=
      splitOn_beside hroot hnames hbeside hpath.symm
    have hnonempty : rest ≠ [] := by
      rintro rfl
      exact hfirst (List.cons.inj hrest).1.symm
    have hhead : rest.head? ≠ some slash := by
      intro hhead
      obtain ⟨tail, rfl⟩ : ∃ tail, rest = slash :: tail :=
        ⟨rest.tail, (List.cons_head?_tail hhead).symm⟩
      rw [← List.nil_append (slash :: tail), List.splitOn_append_cons_self] at hrest
      exact hfirst (List.cons.inj hrest).1.symm
    -- the first part is not empty, so only these three refuse the rest
    have hvalid : validateRelative rest = .ok () ↔
        ¬ (0 ∈ rest ∨ first = [dot] ∨ first = [dot, dot]) := by
      rw [validateRelative_iff, hrest, List.forall_mem_cons]
      constructor
      · rintro (hnil | ⟨-, hnul, ⟨hparent, hself, -⟩, -⟩)
        · exact absurd hnil hnonempty
        · simp [hnul, hparent, hself]
      · intro h
        rw [not_or, not_or] at h
        obtain ⟨hnul, hself, hparent⟩ := h
        refine .inr ⟨hhead, hnul, ⟨hparent, hself, hfirst⟩, fun part hpart => ?_⟩
        have hplain := hparts part hpart
        exact ⟨hplain.notParent, hplain.notSelf, hplain.nonempty⟩
    rw [← hpath, tokenUnderRoot_append hnonempty, if_neg hhead, encodeRelative_isOk, hvalid,
      not_not]
    constructor
    · intro h
      refine ⟨fun hbelow => absurd (hpath ▸ hbelow) hnot, fun _ rest' hrest' => ?_⟩
      rw [← List.append_cancel_left hrest', hrest]
      simpa using h
    · intro h
      have hrest' := h.beside (hpath ▸ hnot) rest rfl
      rw [hrest] at hrest'
      simpa using hrest'
  · refine iff_of_true ?_ ⟨fun hbelow => absurd hbelow hnot, fun _ rest hrest => ?_⟩
    · rw [tokenUnderRoot_outside hprefix]
      rintro ⟨token, hok⟩
      cases hok
    · exact absurd ⟨rest, hrest.symm⟩ hprefix

end Beside

/-! ## When a token tells the truth -/

theorem token_names_path_iff {root path : Bytes} (hroot : IsNormal root) (hpath : IsNormal path) :
    TokenNames root path ↔ BytesTell root path := by
  obtain ⟨rootNames, hrootNames, rfl⟩ := hroot.names
  obtain ⟨names, hnames, rfl⟩ := hpath.names
  by_cases hbelow : rootNames <+: names
  · obtain ⟨more, rfl⟩ := hbelow
    by_cases hnil : more = []
    · rw [hnil, List.append_nil]
      exact iff_of_true (token_at_root rootNames).1 (token_at_root rootNames).2
    · exact token_below hrootNames (fun name hname => hnames name (by simp [hname])) hnil
  · exact token_beside hrootNames hnames hbelow

/-- An answer of `readlink` names its target, and a target in the root, exactly if the bytes
of the target tell whether it is in the root. -/
theorem readlinkToken_ok {t : FileTree} {rounds : Nat} {flags : Flags} {token : Bytes}
    (hroot : IsNormal flags.root) (h : readlinkToken t rounds flags = some (.ok token)) :
    ∃ path canonical, resolveToken flags.root flags.token = .ok path ∧
      canonicalize t rounds path = some (.ok canonical) ∧
      (resolveToken flags.root token = .ok canonical ∧ AtOrBelow flags.root canonical ↔
        BytesTell flags.root canonical) := by
  unfold readlinkToken at h
  split at h
  · cases h
  · next path hpath =>
    obtain ⟨result, hcanonical, htoken⟩ := Option.map_eq_some_iff.mp h
    obtain ⟨canonical, rfl, htoken⟩ := bind_eq_ok.mp htoken
    refine ⟨path, canonical, hpath, hcanonical, ?_⟩
    obtain ⟨names, hreal⟩ := canonicalize_real hcanonical
    have hnormal : IsNormal canonical := hreal.path_eq ▸ isNormal_absolute hreal.plain
    rw [← token_names_path_iff hroot hnormal]
    constructor
    · rintro ⟨hnamed, hbelow⟩
      refine ⟨iff_of_true ⟨token, htoken⟩ hbelow, fun other hother => ?_⟩
      cases htoken.symm.trans hother
      exact hnamed
    · intro hnames
      exact ⟨hnames.named token htoken, hnames.answered.mp ⟨token, htoken⟩⟩

/-- **Tokens name what they were made from**, for a path whose bytes tell whether it is below
the root: then there is a token exactly if it is, and the token is resolved to the path. And
then only does an answer of `readlink` name the target, in the root. -/
theorem tokens_name_paths (root path : Bytes) :
    (IsNormal root → IsNormal path → (TokenNames root path ↔ BytesTell root path)) ∧
    ∀ (t : FileTree) (rounds : Nat) (flags : Flags) (token : Bytes), IsNormal flags.root →
      readlinkToken t rounds flags = some (.ok token) →
      ∃ path canonical, resolveToken flags.root flags.token = .ok path ∧
        canonicalize t rounds path = some (.ok canonical) ∧
        (resolveToken flags.root token = .ok canonical ∧ AtOrBelow flags.root canonical ↔
          BytesTell flags.root canonical) :=
  ⟨fun hroot hpath => token_names_path_iff hroot hpath,
    fun _ _ _ _ hroot h => readlinkToken_ok hroot h⟩

/-- A volume with a link to a directory that lies beside it. -/
def besideTree : FileTree where
  entries :=
    [([], directoryNode), ([ascii "mnt"], directoryNode),
      ([ascii "mnt", ascii "data"], directoryNode),
      ([ascii "mnt", ascii "database"], directoryNode),
      ([ascii "mnt", ascii "data", ascii "log"], ⟨.symlink (ascii "log.1"), 7, 0o777, 0, 0⟩),
      ([ascii "mnt", ascii "data", ascii "log.1"], ⟨.regular (ascii "hi"), 7, 0o644, 0, 0⟩),
      ([ascii "mnt", ascii "data", ascii "out"],
        ⟨.symlink (ascii "../database"), 7, 0o777, 0, 0⟩)]
  nodup := by decide +kernel
  rooted := by decide +kernel
  placed := by decide +kernel

def logLinkFlags : Flags := ⟨ascii "/mnt/data", ascii "v1:bG9n", false, none, none⟩

def outLinkFlags : Flags := ⟨ascii "/mnt/data", ascii "v1:b3V0", false, none, none⟩

theorem isNormal_mnt_data : IsNormal (ascii "/mnt/data") := ⟨by decide +kernel, by decide +kernel⟩

/-- The target of `log` gets a token that names it. -/
theorem log_token_names_target : ∃ path canonical,
    resolveToken (ascii "/mnt/data") logLinkFlags.token = .ok path ∧
    canonicalize besideTree 41 path = some (.ok canonical) ∧
    (resolveToken (ascii "/mnt/data") (ascii "v1:bG9nLjE=") = .ok canonical ∧
        AtOrBelow (ascii "/mnt/data") canonical ↔
      BytesTell (ascii "/mnt/data") canonical) ∧
    (TokenNames (ascii "/mnt/data") (ascii "/mnt/data/log.1") ↔
      BytesTell (ascii "/mnt/data") (ascii "/mnt/data/log.1")) := by
  have hanswer : readlinkToken besideTree 41 logLinkFlags = some (.ok (ascii "v1:bG9nLjE=")) := by
    decide +kernel
  obtain ⟨path, canonical, hpath, hcanonical, hnames⟩ :=
    (tokens_name_paths (ascii "/mnt/data") (ascii "/mnt/data/log.1")).2 besideTree 41
      logLinkFlags _ isNormal_mnt_data hanswer
  have hfile : IsNormal (ascii "/mnt/data/log.1") := ⟨by decide +kernel, by decide +kernel⟩
  exact ⟨path, canonical, hpath, hcanonical, hnames,
    (tokens_name_paths _ _).1 isNormal_mnt_data hfile⟩

/-- **A sibling is taken for a child**: `/mnt/database` is beside `/mnt/data`, but it has a
token there, which names `/mnt/data/base`; `readlink` answers the link `out` with it. -/
theorem sibling_gets_a_token :
    IsNormal (ascii "/mnt/data") ∧ IsNormal (ascii "/mnt/database") ∧
    ¬ TokenNames (ascii "/mnt/data") (ascii "/mnt/database") ∧
    ¬ AtOrBelow (ascii "/mnt/data") (ascii "/mnt/database") ∧
    readlinkToken besideTree 41 outLinkFlags = some (.ok (ascii "v1:YmFzZQ==")) ∧
    resolveToken (ascii "/mnt/data") (ascii "v1:YmFzZQ==") = .ok (ascii "/mnt/data/base") := by
  have htoken : tokenUnderRoot (ascii "/mnt/data") (ascii "/mnt/database") =
      .ok (ascii "v1:YmFzZQ==") := by
    decide +kernel
  have hnot : ¬ AtOrBelow (ascii "/mnt/data") (ascii "/mnt/database") := by
    unfold AtOrBelow
    decide +kernel
  refine ⟨isNormal_mnt_data, ⟨by decide +kernel, by decide +kernel⟩, ?_, hnot, by decide +kernel,
    by decide +kernel⟩
  exact fun h => hnot (h.answered.mp ⟨_, htoken⟩)

end TuxStack.FsHelper
