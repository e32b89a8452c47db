import TuxStack.FsHelper.Listing
import TuxStack.Lib.PathComponents

/-!
# Confinement to the browse root

`crates/tuxstack-fs-helper/src/path.rs`: `normalize`, `canonicalize` and `confine_to_root`,
which the commands call before they read a file.

`canonicalize` walks a path from the root, and at a link begins again with the target put
in its place. A round of this loop is `canonicalizeRound`, and `canonicalize` runs a number
of rounds; 41 are always enough (`canonicalize_terminates`). A path that it finds is on no
link and exists (`canonicalize_real`), so what `confine_to_root` lets through is in the root.
-/

namespace TuxStack.FsHelper

open Vfs Files Result

/-! ## `normalize` -/

def normalizeStep (out : List Component) : Component → List Component
  | .curDir => out
  | .parentDir =>
    match out.getLast? with
    | none => out
    | some .rootDir => [.rootDir]
    | some _ => out.dropLast
  | .rootDir => [.rootDir]
  | .normal name => out ++ [.normal name]

/-- `normalize`; `out` is a path by its components. The second branch, where the path would
be displayed, is never taken (`normalize_absolute`). -/
def normalize (path : Bytes) : Bytes :=
  let out := (components path).foldl normalizeStep []
  if out = [] then [slash]
  else if isAbsolute path ∧ (ofComponents out).head? ≠ some slash then
    slash :: ofComponents out
  else ofComponents out

/-! ## `canonicalize` -/

def maxSymlinkHops : Nat := 40

/-- How a round of `canonicalize` ends. -/
inductive Round where
  | finished (result : Bytes)
  | restarted (current : Bytes)
deriving DecidableEq

/-- The components that are left, from `result` on. -/
def canonicalizeWalk (t : FileTree) (hops : Nat) (result : Bytes) :
    List Component → Except HelperErrorCode Round
  | [] => .ok (.finished result)
  | component :: rest => do
      let next := joinPath result component.asBytes
      let node ← liftIo (t.symlinkMetadata next)
      match node.kind with
      | .symlink _ =>
        if hops + 1 > maxSymlinkHops then .error .symlinkLoop
        else do
          let target ← liftIo (t.readLink next)
          .ok (.restarted (if isAbsolute target then
              normalize (joinPath target (ofComponents rest))
            else normalize (joinPath (joinPath result target) (ofComponents rest))))
      | _ => canonicalizeWalk t hops next rest

def canonicalizeRound (t : FileTree) (hops : Nat) (current : Bytes) :
    Except HelperErrorCode Round :=
  canonicalizeWalk t hops [slash] (components current)

/-- At most `rounds` rounds of the loop. -/
def canonicalizeLoop (t : FileTree) :
    Nat → Nat → Bytes → Option (Except HelperErrorCode Bytes)
  | 0, _, _ => none
  | rounds + 1, hops, current =>
    match canonicalizeRound t hops current with
    | .error code => some (.error code)
    | .ok (.finished result) => some (.ok result)
    | .ok (.restarted current) => canonicalizeLoop t rounds (hops + 1) current

/-- `canonicalize`, if it comes to its end in `rounds` rounds. -/
def canonicalize (t : FileTree) (rounds : Nat) (path : Bytes) :
    Option (Except HelperErrorCode Bytes) :=
  canonicalizeLoop t rounds 0 (normalize path)

def confineCheck (canonical rootCanonical : Bytes) : Except HelperErrorCode Bytes :=
  if components canonical = components rootCanonical ∨
      components rootCanonical <+: components canonical then
    .ok canonical
  else .error .pathEscapeRejected

def confineToRoot (t : FileTree) (rounds : Nat) (root path : Bytes) :
    Option (Except HelperErrorCode Bytes) :=
  (canonicalize t rounds path).bind fun canonical =>
    match canonical with
    | .error code => some (.error code)
    | .ok canonical =>
      (canonicalize t rounds root).map fun rootCanonical =>
        rootCanonical.bind fun rootCanonical => confineCheck canonical rootCanonical

/-! ## What `normalize` leaves -/

/-- The components of a path that has been normalised: names, behind `lead`. -/
def NamesBehind (lead parts : List Component) : Prop :=
  ∃ names : List Name, (∀ name ∈ names, PlainName name) ∧ parts = lead ++ names.map .normal

section Normalize

variable {lead : List Component} (hlead : lead = [] ∨ lead = [.rootDir])

include hlead

theorem NamesBehind.step {out : List Component} (h : NamesBehind lead out) {component : Component}
    (hroot : component ≠ .rootDir) (hplain : ∀ name, component = .normal name → PlainName name) :
    NamesBehind lead (normalizeStep out component) := by
  obtain ⟨names, hnames, rfl⟩ := h
  cases component with
  | rootDir => exact absurd rfl hroot
  | curDir => exact ⟨names, hnames, rfl⟩
  | normal name =>
    refine ⟨names ++ [name], ?_, by simp [normalizeStep]⟩
    intro other hother
    rcases List.mem_append.mp hother with hother | hother
    · exact hnames other hother
    · rw [List.mem_singleton.mp hother]
      exact hplain name rfl
  | parentDir =>
    induction names using List.reverseRecOn with
    | nil => exact ⟨[], hnames, by rcases hlead with rfl | rfl <;> rfl⟩
    | append_singleton names name _ =>
      refine ⟨names, fun other hother => hnames other (by simp [hother]), ?_⟩
      rw [List.map_append, ← List.append_assoc]
      unfold normalizeStep
      simp

theorem NamesBehind.foldl : ∀ {parts out : List Component}, NamesBehind lead out →
    .rootDir ∉ parts → (∀ name, .normal name ∈ parts → PlainName name) →
    NamesBehind lead (parts.foldl normalizeStep out) := by
  intro parts
  induction parts with
  | nil => exact fun h _ _ => h
  | cons component parts ih =>
    intro out h hroot hplain
    rw [List.foldl_cons]
    refine ih (h.step hlead ?_ ?_) (fun hmem => hroot (List.mem_cons_of_mem _ hmem))
      fun name hname => hplain name (List.mem_cons_of_mem _ hname)
    · rintro rfl
      exact hroot List.mem_cons_self
    · rintro name rfl
      exact hplain name List.mem_cons_self

end Normalize

/-- The path that is left of `out`. -/
theorem normalize_of_out {path : Bytes} {names : List Name}
    (hnames : ∀ name ∈ names, PlainName name)
    (hout : (components path).foldl normalizeStep [] = .rootDir :: names.map .normal) :
    normalize path = absolute names := by
  have hhead : (absolute names).head? = some slash := head_absolute names
  simp only [normalize, hout, ofComponents_absolute hnames, hhead]
  simp

theorem normalize_absolute {path : Bytes} (h : isAbsolute path = true) :
    ∃ names : List Name, (∀ name ∈ names, PlainName name) ∧ normalize path = absolute names := by
  obtain ⟨rest, hroot, hcomponents⟩ := components_cases path
  rw [if_pos h] at hcomponents
  have hplain : ∀ name, .normal name ∈ rest → PlainName name := fun name hname =>
    plainName_of_mem_components (hcomponents ▸ List.mem_cons_of_mem _ hname)
  have hstart : NamesBehind [.rootDir] [.rootDir] := ⟨[], by simp, rfl⟩
  obtain ⟨names, hnames, hout⟩ := hstart.foldl (.inr rfl) hroot hplain
  refine ⟨names, hnames, normalize_of_out hnames ?_⟩
  rw [hcomponents]
  exact hout

/-- **What is left by `normalize`** are names. -/
theorem components_normalize (path : Bytes) : ∃ lead : List Component,
    (lead = [] ∨ lead = [.rootDir]) ∧ NamesBehind lead (components (normalize path)) := by
  by_cases h : isAbsolute path = true
  · obtain ⟨names, hnames, hpath⟩ := normalize_absolute h
    rw [hpath]
    exact ⟨[.rootDir], .inr rfl, names, hnames, components_absolute hnames⟩
  · obtain ⟨rest, hroot, hcomponents⟩ := components_cases path
    rw [if_neg h] at hcomponents
    have hplain : ∀ name, .normal name ∈ rest → PlainName name := fun name hname =>
      plainName_of_mem_components (hcomponents ▸ hname)
    have hstart : NamesBehind [] [] := ⟨[], by simp, rfl⟩
    obtain ⟨names, hnames, hout⟩ := hstart.foldl (.inl rfl) hroot hplain
    rw [List.nil_append] at hout
    simp only [normalize, hcomponents, hout]
    split
    · exact ⟨[.rootDir], .inr rfl, [], by simp, rfl⟩
    · rw [if_neg (by simp [h]), ofComponents_relative hnames]
      exact ⟨[], .inl rfl, names, hnames, components_relative hnames⟩

/-! ## The rounds of `canonicalize` -/

/-- A path that exists as it stands: there is no link at it or on the way to it. -/
structure RealPath (t : FileTree) (path : Bytes) (names : List Name) : Prop where
  path_eq : path = absolute names
  plain : ∀ name ∈ names, PlainName name
  noLinks : ∀ front, front <+: names → ∃ node, t.symlinkMetadata (absolute front) = .ok node ∧
    ∀ target, node.kind ≠ .symlink target

theorem realPath_of_linkFree {t : FileTree} {names : List Name}
    (hplain : ∀ name ∈ names, PlainName name) (hfree : t.LinkFree names) :
    RealPath t (absolute names) names := by
  refine ⟨rfl, hplain, fun front hfront => ?_⟩
  obtain ⟨node, hnode, hkind⟩ := hfree front hfront
  refine ⟨node, ?_, hkind⟩
  rw [FileTree.symlinkMetadata_absolute (fun name hname => hplain name (hfront.subset hname))
    fun other hother => hfree other (hother.trans hfront), FileTree.nodeAt, hnode]

section Walk

variable {t : FileTree} {hops : Nat}

theorem canonicalizeWalk_cons {result : Bytes} {component : Component} {rest : List Component}
    {round : Round} (h : canonicalizeWalk t hops result (component :: rest) = .ok round) :
    ∃ node, t.symlinkMetadata (joinPath result component.asBytes) = .ok node ∧
      ((∃ path, round = .restarted (normalize path) ∧ hops < maxSymlinkHops) ∨
        (∀ target, node.kind ≠ .symlink target) ∧
          canonicalizeWalk t hops (joinPath result component.asBytes) rest = .ok round) := by
  unfold canonicalizeWalk at h
  obtain ⟨node, hnode, hround⟩ := bind_eq_ok.mp h
  refine ⟨node, liftIo_eq_ok.mp hnode, ?_⟩
  split at hround
  · split at hround
    · cases hround
    · next hhops =>
      obtain ⟨target, -, hrestart⟩ := bind_eq_ok.mp hround
      cases hrestart
      refine .inl ?_
      split
      · exact ⟨_, rfl, Nat.not_lt.mp hhops⟩
      · exact ⟨_, rfl, Nat.not_lt.mp hhops⟩
  · next hkind => exact .inr ⟨hkind, hround⟩

/-- A round begins again with a normalised path, and only while there are hops left. -/
theorem canonicalizeWalk_restarted : ∀ {rest : List Component} {result current : Bytes},
    canonicalizeWalk t hops result rest = .ok (.restarted current) →
      hops < maxSymlinkHops ∧ ∃ path, current = normalize path := by
  intro rest
  induction rest with
  | nil =>
    intro result current h
    cases h
  | cons component rest ih =>
    intro result current h
    obtain ⟨_, -, ⟨path, hround, hhops⟩ | ⟨-, hrest⟩⟩ := canonicalizeWalk_cons h
    · cases hround
      exact ⟨hhops, path, rfl⟩
    · exact ih hrest

theorem canonicalizeWalk_finished : ∀ {rest names : List Name} {result : Bytes},
    (∀ name ∈ names, PlainName name) → t.LinkFree names → (∀ name ∈ rest, PlainName name) →
    canonicalizeWalk t hops (absolute names) (rest.map .normal) = .ok (.finished result) →
      ∃ names', RealPath t result names' := by
  intro rest
  induction rest with
  | nil =>
    intro names result hplain hfree _ h
    cases h
    exact ⟨names, realPath_of_linkFree hplain hfree⟩
  | cons name rest ih =>
    intro names result hplain hfree hrest h
    have hname := hrest name List.mem_cons_self
    obtain ⟨node, hnode, hround⟩ := canonicalizeWalk_cons h
    rw [show Component.asBytes (.normal name) = name from rfl, join_absolute hplain hname]
      at hnode hround
    rcases hround with ⟨_, hround, -⟩ | ⟨hkind, hround⟩
    · cases hround
    · have hchild := FileTree.node_of_symlinkMetadata hplain hfree hname hnode
      refine ih ?_ (hfree.snoc hchild hkind)
        (fun other hother => hrest other (List.mem_cons_of_mem _ hother)) hround
      intro other hother
      rcases List.mem_append.mp hother with hother | hother
      · exact hplain other hother
      · rw [List.mem_singleton.mp hother]
        exact hname

theorem canonicalizeRound_finished {current result : Bytes} {lead : List Component}
    (hlead : lead = [] ∨ lead = [.rootDir]) (hparts : NamesBehind lead (components current))
    (h : canonicalizeRound t hops current = .ok (.finished result)) :
    ∃ names, RealPath t result names := by
  obtain ⟨names, hnames, hcomponents⟩ := hparts
  have hfree : t.LinkFree [] := FileTree.linkFree_nil
  have hnone : ∀ name ∈ ([] : List Name), PlainName name := by simp
  unfold canonicalizeRound at h
  rw [hcomponents] at h
  rcases hlead with rfl | rfl
  · exact canonicalizeWalk_finished hnone hfree hnames h
  · obtain ⟨_, -, ⟨_, hround, -⟩ | ⟨-, hround⟩⟩ := canonicalizeWalk_cons h
    · cases hround
    · exact canonicalizeWalk_finished hnone hfree hnames hround

end Walk

/-! ## The loop -/

section Loop

variable {t : FileTree}

theorem canonicalizeLoop_ends : ∀ {rounds hops : Nat} (current : Bytes), hops ≤ maxSymlinkHops →
    maxSymlinkHops < rounds + hops →
    ∃ result, canonicalizeLoop t rounds hops current = some result := by
  intro rounds
  induction rounds with
  | zero =>
    intro hops current hle hlt
    omega
  | succ rounds ih =>
    intro hops current hle hlt
    rw [canonicalizeLoop]
    cases hround : canonicalizeRound t hops current with
    | error code => exact ⟨_, rfl⟩
    | ok round =>
      cases round with
      | finished result => exact ⟨_, rfl⟩
      | restarted next =>
        have hhops := (canonicalizeWalk_restarted hround).1
        exact ih next hhops (by omega)

theorem canonicalizeLoop_mono : ∀ {rounds rounds' hops : Nat} {current : Bytes}
    {result : Except HelperErrorCode Bytes}, canonicalizeLoop t rounds hops current = some result →
    rounds ≤ rounds' → canonicalizeLoop t rounds' hops current = some result := by
  intro rounds
  induction rounds with
  | zero =>
    intro rounds' hops current result h _
    cases h
  | succ rounds ih =>
    intro rounds' hops current result h hle
    obtain ⟨more, rfl⟩ := Nat.exists_eq_add_of_le' (Nat.le_trans (Nat.le_add_left 1 rounds) hle)
    rw [canonicalizeLoop] at h ⊢
    cases hround : canonicalizeRound t hops current with
    | error code =>
      rw [hround] at h
      exact h
    | ok round =>
      rw [hround] at h
      cases round with
      | finished result => exact h
      | restarted next => exact ih h (Nat.le_of_succ_le_succ hle)

theorem canonicalizeLoop_real :
    ∀ {rounds hops : Nat} {current result : Bytes} {lead : List Component},
    (lead = [] ∨ lead = [.rootDir]) → NamesBehind lead (components current) →
    canonicalizeLoop t rounds hops current = some (.ok result) →
    ∃ names, RealPath t result names := by
  intro rounds
  induction rounds with
  | zero =>
    intro hops current result lead _ _ h
    cases h
  | succ rounds ih =>
    intro hops current result lead hlead hparts h
    rw [canonicalizeLoop] at h
    cases hround : canonicalizeRound t hops current with
    | error code =>
      rw [hround] at h
      cases h
    | ok round =>
      rw [hround] at h
      cases round with
      | finished found =>
        cases h
        exact canonicalizeRound_finished hlead hparts hround
      | restarted next =>
        obtain ⟨-, path, rfl⟩ := canonicalizeWalk_restarted hround
        obtain ⟨lead', hlead', hparts'⟩ := components_normalize path
        exact ih hlead' hparts' h

/-- **`canonicalize` terminates**, with one result however many rounds it is given. -/
theorem canonicalize_terminates (t : FileTree) (path : Bytes) : ∃ result, ∀ rounds,
    maxSymlinkHops < rounds → canonicalize t rounds path = some result := by
  have hrounds : maxSymlinkHops < maxSymlinkHops + 1 + 0 := Nat.lt_succ_self _
  obtain ⟨result, hresult⟩ :=
    canonicalizeLoop_ends (t := t) (normalize path) (Nat.zero_le _) hrounds
  exact ⟨result, fun rounds hrounds => canonicalizeLoop_mono hresult hrounds⟩

/-- **A canonical path is real.** -/
theorem canonicalize_real {rounds : Nat} {path result : Bytes}
    (h : canonicalize t rounds path = some (.ok result)) : ∃ names, RealPath t result names := by
  obtain ⟨lead, hlead, hparts⟩ := components_normalize path
  exact canonicalizeLoop_real hlead hparts h

end Loop

/-! ## What is let through -/

theorem confineToRoot_ok {t : FileTree} {rounds : Nat} {root path p : Bytes}
    (h : confineToRoot t rounds root path = some (.ok p)) :
    canonicalize t rounds path = some (.ok p) ∧ ∃ rootCanonical,
      canonicalize t rounds root = some (.ok rootCanonical) ∧
      components rootCanonical <+: components p := by
  unfold confineToRoot at h
  obtain ⟨canonical, hcanonical, hrest⟩ := Option.bind_eq_some_iff.mp h
  cases canonical with
  | error code => cases hrest
  | ok canonical =>
    obtain ⟨rootCanonical, hroot, hcheck⟩ := Option.map_eq_some_iff.mp hrest
    obtain ⟨rootPath, rfl, hpath⟩ := bind_eq_ok.mp hcheck
    unfold confineCheck at hpath
    split at hpath
    · next hinside =>
      cases hpath
      refine ⟨hcanonical, rootPath, hroot, ?_⟩
      rcases hinside with hsame | hbelow
      · rw [hsame]
      · exact hbelow
    · cases hpath

/-- **Read confinement.** `canonicalize` ends for every path, links in circles included. What
`confine_to_root` lets through exists, has no link in it, and is the canonical root or below
it, name by name. -/
theorem confined_to_root (t : FileTree) :
    (∀ path, ∃ result, ∀ rounds, maxSymlinkHops < rounds →
      canonicalize t rounds path = some result) ∧
    ∀ rounds root path p, confineToRoot t rounds root path = some (.ok p) →
      ∃ rootCanonical rootNames names, canonicalize t rounds root = some (.ok rootCanonical) ∧
        RealPath t rootCanonical rootNames ∧ RealPath t p names ∧ rootNames <+: names := by
  refine ⟨canonicalize_terminates t, fun rounds root path p h => ?_⟩
  obtain ⟨hpath, rootCanonical, hroot, hprefix⟩ := confineToRoot_ok h
  obtain ⟨names, hreal⟩ := canonicalize_real hpath
  obtain ⟨rootNames, hrootReal⟩ := canonicalize_real hroot
  refine ⟨rootCanonical, rootNames, names, hroot, hrootReal, hreal, ?_⟩
  rw [hreal.path_eq, hrootReal.path_eq, components_absolute hreal.plain,
    components_absolute hrootReal.plain, List.cons_prefix_cons] at hprefix
  exact (List.prefix_map_iff_of_injective fun _ _ hsame => Component.normal.inj hsame).mp
    hprefix.2

/-- A volume with a link to its log file, a link to itself and a link out of it. -/
def linkedTree : FileTree where
  entries :=
    [([], directoryNode), ([ascii "mnt"], directoryNode),
      ([ascii "mnt", ascii "data"], directoryNode),
      ([ascii "mnt", ascii "data", ascii "app.log"], ⟨.regular (ascii "hi"), 7, 0o644, 0, 0⟩),
      ([ascii "mnt", ascii "data", ascii "log"], ⟨.symlink (ascii "./app.log"), 7, 0o777, 0, 0⟩),
      ([ascii "mnt", ascii "data", ascii "self"], ⟨.symlink (ascii "self"), 7, 0o777, 0, 0⟩),
      ([ascii "mnt", ascii "data", ascii "out"], ⟨.symlink (ascii "/mnt"), 7, 0o777, 0, 0⟩)]
  nodup := by decide +kernel
  rooted := by decide +kernel
  placed := by decide +kernel

example : canonicalize linkedTree 41 (ascii "/mnt/data/self") = some (.error .symlinkLoop) := by
  decide +kernel

example : confineToRoot linkedTree 41 (ascii "/mnt/data") (ascii "/mnt/data/out") =
    some (.error .pathEscapeRejected) := by
  decide +kernel

theorem log_link_confined : ∃ rootCanonical rootNames names,
    canonicalize linkedTree 41 (ascii "/mnt/data/") = some (.ok rootCanonical) ∧
    RealPath linkedTree rootCanonical rootNames ∧
    RealPath linkedTree (ascii "/mnt/data/app.log") names ∧ rootNames <+: names := by
  have hconfined : confineToRoot linkedTree 41 (ascii "/mnt/data/") (ascii "/mnt/data//log") =
      some (.ok (ascii "/mnt/data/app.log")) := by
    decide +kernel
  exact (confined_to_root linkedTree).2 41 _ _ _ hconfined

end TuxStack.FsHelper
