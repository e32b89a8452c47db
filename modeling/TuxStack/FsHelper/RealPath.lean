import TuxStack.FsHelper.Confinement
import TuxStack.Lib.TreeWalks

/-!
# `canonicalize` against the kernel

`canonicalize` (`crates/tuxstack-fs-helper/src/path.rs`) is to resolve every link "like
`realpath`". At a link it puts the target and what is left of the path together and
collapses every `..` in the text (`splice`), where the kernel walks through the target and
takes a `..` at the directory that it has reached.

The two agree as long as every text on the way is `Straight`: what a `..` takes away is a
directory, and so is what stands before a slash at the end (`canonicalize_iff`).
-/

namespace TuxStack.FsHelper

open Vfs Files Result Separated
open Files.FileTree (collapse collapseStep)

/-! ## Collapsed texts -/

section Collapse

variable {stack names : List Name} {part : Name}

theorem foldl_normalizeStep : ∀ {parts stack : List Name},
    (parts.filterMap componentOf).foldl normalizeStep (.rootDir :: stack.map .normal) =
      .rootDir :: (collapse stack parts).map .normal := by
  intro parts
  induction parts with
  | nil => exact rfl
  | cons part parts ih =>
    intro stack
    show _ = Component.rootDir :: (collapse (collapseStep stack part) parts).map Component.normal
    rw [← ih]
    unfold collapseStep
    by_cases hskip : part = [] ∨ part = [46]
    · have hnone : componentOf part = none := by
        unfold componentOf
        rw [if_pos hskip]
      rw [if_pos hskip, List.filterMap_cons_none hnone]
    · by_cases hup : part = [46, 46]
      · have hparent : componentOf part = some .parentDir := by
          unfold componentOf
          rw [if_neg hskip, if_pos hup]
        rw [if_neg hskip, if_pos hup, List.filterMap_cons_some hparent, List.foldl_cons]
        congr 1
        rcases List.eq_nil_or_concat stack with rfl | ⟨front, last, rfl⟩
        · rfl
        · rw [List.concat_eq_append, List.dropLast_concat, List.map_append, ← List.cons_append]
          unfold normalizeStep
          rw [List.map_singleton, List.getLast?_concat, List.dropLast_concat]
      · have hnormal : componentOf part = some (.normal part) := by
          unfold componentOf
          rw [if_neg hskip, if_neg hup]
        rw [if_neg hskip, if_neg hup, List.filterMap_cons_some hnormal, List.foldl_cons]
        congr 1
        simp [normalizeStep]

variable {other path : Bytes}

/-- **What `normalize` leaves** of an absolute path. -/
theorem normalize_eq (h : isAbsolute path = true) :
    normalize path = absolute (collapse [] (FileTree.components path)) := by
  have hparts : ∀ part ∈ FileTree.components path, separator ∉ part :=
    fun part hpart => not_mem_of_mem_splitOn hpart
  refine normalize_of_out (FileTree.plain_collapse hparts nofun) ?_
  rw [← foldl_normalizeStep]
  simp only [components, if_pos h]
  rfl

theorem collapse_plain : ∀ {names stack : List Name}, (∀ name ∈ names, PlainName name) →
    collapse stack names = stack ++ names := by
  intro names
  induction names with
  | nil => exact fun _ => (List.append_nil _).symm
  | cons name names ih =>
    intro stack h
    have hname := h name List.mem_cons_self
    have hstep : collapseStep stack name = stack ++ [name] := by
      unfold collapseStep
      rw [if_neg (by simp [hname.nonempty, hname.notSelf]), if_neg hname.notParent]
    show collapse (collapseStep stack name) names = _
    rw [hstep, ih fun other hother => h other (List.mem_cons_of_mem _ hother), List.append_assoc]
    rfl

theorem isAbsolute_join (hpath : isAbsolute path = true) (h : isAbsolute other = false) :
    isAbsolute (joinPath path other) = true := by
  cases path with
  | nil => cases hpath
  | cons byte path =>
    unfold joinPath FileTree.join
    rw [h, if_neg Bool.false_ne_true]
    split
    · exact hpath
    · exact hpath

theorem collapse_join (hpath : path ≠ []) (h : isAbsolute other = false) :
    collapse stack (FileTree.components (joinPath path other)) =
      collapse (collapse stack (FileTree.components path)) (FileTree.components other) := by
  unfold joinPath FileTree.join
  rw [h, if_neg Bool.false_ne_true]
  split
  · next hend =>
    obtain ⟨front, rfl⟩ : ∃ front, path = front ++ [separator] :=
      ⟨path.dropLast, (List.dropLast_append_getLast? _ (hend.resolve_left hpath)).symm⟩
    have hwith : FileTree.components (front ++ [separator] ++ other) =
        FileTree.components front ++ FileTree.components other := by
      rw [List.append_assoc, List.singleton_append]
      exact List.splitOn_append_cons_self ..
    have hwithout : FileTree.components (front ++ [separator]) =
        FileTree.components front ++ [[]] := List.splitOn_append_cons_self ..
    rw [hwith, hwithout]
    unfold collapse
    rw [List.foldl_append, List.foldl_append]
    rfl
  · have hwith : FileTree.components (path ++ separator :: other) =
        FileTree.components path ++ FileTree.components other :=
      List.splitOn_append_cons_self ..
    rw [hwith]
    exact List.foldl_append ..

theorem collapse_relative (h : ∀ name ∈ names, PlainName name) :
    collapse stack (FileTree.components (relative names)) = stack ++ names := by
  by_cases hnil : names = []
  · subst hnil
    exact (List.append_nil _).symm
  · unfold FileTree.components
    rw [splitOn_relative h hnil, collapse_plain h]

theorem collapse_absolute (h : ∀ name ∈ names, PlainName name) :
    collapse [] (FileTree.components (absolute names)) = names := by
  unfold absolute FileTree.components
  split
  · next hnil =>
    rw [hnil]
    rfl
  · rw [splitOn_below h]
    exact collapse_plain h

end Collapse

/-! ## Links on the way -/

def base (here : List Name) (target : Bytes) : List Name :=
  if target.head? = some separator then [] else here

/-- The names that `canonicalize` goes on with at a link. -/
def splice (here : List Name) (target : Bytes) (rest : List Name) : List Name :=
  collapse (base here target) (FileTree.components target) ++ rest

variable {target : Bytes} {front : List Name}

/-- The text that `canonicalize` goes on with. -/
theorem normalize_splice {here rest : List Name} (hhere : ∀ name ∈ here, PlainName name)
    (hrest : ∀ name ∈ rest, PlainName name) :
    (if isAbsolute target = true then
      normalize (joinPath target (ofComponents (rest.map .normal)))
    else
      normalize (joinPath (joinPath (absolute here) target) (ofComponents (rest.map .normal)))) =
      absolute (splice here target rest) := by
  have hrelative : isAbsolute (relative rest) = false := decide_eq_false (head_relative hrest)
  rw [ofComponents_relative hrest]
  unfold splice base
  by_cases htarget : isAbsolute target = true
  · have hne : target ≠ [] := by
      rintro rfl
      cases htarget
    rw [if_pos htarget, if_pos (of_decide_eq_true htarget),
      normalize_eq (isAbsolute_join htarget hrelative), collapse_join hne hrelative,
      collapse_relative hrest]
  · have htarget' : isAbsolute target = false := Bool.eq_false_iff.mpr htarget
    have hfront := isAbsolute_join (isAbsolute_absolute here) htarget'
    have hne : joinPath (absolute here) target ≠ [] := by
      intro hnil
      rw [hnil] at hfront
      cases hfront
    rw [if_neg htarget, if_neg (of_decide_eq_false htarget'),
      normalize_eq (isAbsolute_join hfront hrelative), collapse_join hne hrelative,
      collapse_join (absolute_ne_nil here) htarget', collapse_absolute hhere,
      collapse_relative hrest]

/-! ## A round and a walk -/

/-- The first link on the way through `names`. -/
structure FirstLink (t : FileTree) (names front : List Name) (target : Bytes)
    (rest : List Name) : Prop where
  free : t.LinkFree front
  link : ∃ name node, names = front ++ name :: rest ∧ t.node (front ++ [name]) = some node ∧
    node.kind = .symlink target

section Rounds

variable {t : FileTree} {hops : Nat}

section Step

variable {result next : Bytes} {component : Component} {rest : List Component} {node : FileNode}
  (hnext : joinPath result component.asBytes = next)

include hnext

theorem canonicalizeWalk_of_error {error : IoError} (h : t.symlinkMetadata next = .error error) :
    canonicalizeWalk t hops result (component :: rest) = .error (fromIo error) := by
  subst hnext
  rw [canonicalizeWalk, h]
  rfl

theorem canonicalizeWalk_of_link {target : Bytes} (h : t.symlinkMetadata next = .ok node)
    (hkind : node.kind = .symlink target) :
    canonicalizeWalk t hops result (component :: rest) =
      if hops + 1 > maxSymlinkHops then .error .symlinkLoop
      else .ok
        (.restarted (if isAbsolute target then normalize (joinPath target (ofComponents rest))
        else normalize (joinPath (joinPath result target) (ofComponents rest)))) := by
  subst hnext
  obtain ⟨kind, _, _, _, _⟩ := node
  obtain rfl : kind = .symlink target := hkind
  have htarget : t.readLink (joinPath result component.asBytes) = .ok target := by
    rw [FileTree.readLink, h]
    rfl
  rw [canonicalizeWalk, h]
  show (if hops + 1 > maxSymlinkHops then _ else (liftIo (t.readLink _)).bind _) = _
  rw [htarget]
  rfl

theorem canonicalizeWalk_of_other (h : t.symlinkMetadata next = .ok node)
    (hkind : ∀ target, node.kind ≠ .symlink target) :
    canonicalizeWalk t hops result (component :: rest) = canonicalizeWalk t hops next rest := by
  subst hnext
  rw [canonicalizeWalk, h]
  obtain ⟨kind, _, _, _, _⟩ := node
  cases kind with
  | symlink target => exact absurd rfl (hkind target)
  | _ => rfl

end Step

/-- **One way, twice**: a round of `canonicalize` and a walk of the kernel come to the same
end, or to the same link. -/
theorem round_cases : ∀ {rest here : List Name}, (∀ name ∈ here, PlainName name) → t.LinkFree here →
    (∀ name ∈ rest, PlainName name) →
    (canonicalizeWalk t hops (absolute here) (rest.map .normal) =
        .ok (.finished (absolute (here ++ rest))) ∧
      ∀ links, t.walk true links here rest = .ok (here ++ rest)) ∨
    (∃ code error, canonicalizeWalk t hops (absolute here) (rest.map .normal) = .error code ∧
      ∀ links, t.walk true links here rest = .error error) ∨
    ∃ front target behind, FirstLink t (here ++ rest) front target behind ∧
      canonicalizeWalk t hops (absolute here) (rest.map .normal) =
        (if hops + 1 > maxSymlinkHops then .error .symlinkLoop
          else .ok (.restarted (absolute (splice front target behind)))) ∧
      ∀ links, t.walk true links here rest =
        t.follow links (base front target) (FileTree.components target ++ behind) := by
  intro rest
  induction rest with
  | nil =>
    intro here _ _ _
    rw [List.append_nil]
    exact .inl ⟨rfl, fun _ => FileTree.walk_nil⟩
  | cons name rest ih =>
    intro here hhere hfree hplain
    have hname := hplain name List.mem_cons_self
    have hrest : ∀ other ∈ rest, PlainName other :=
      fun other hother => hplain other (List.mem_cons_of_mem _ hother)
    have hskip : ¬ (name = [] ∨ name = [46]) := by simp [hname.nonempty, hname.notSelf]
    have hjoin : joinPath (absolute here) (Component.normal name).asBytes =
        absolute (here ++ [name]) := join_absolute hhere hname
    have hlookup := FileTree.symlinkMetadata_snoc hhere hfree hname
    rw [List.map_cons]
    by_cases hdirectory : t.IsDirectory here
    · cases hchild : t.node (here ++ [name]) with
      | none =>
        rw [FileTree.child_missing hdirectory hchild] at hlookup
        exact .inr (.inl ⟨_, _, canonicalizeWalk_of_error hjoin hlookup, fun _ =>
          FileTree.walk_missing hskip hname.notParent hdirectory hchild rest⟩)
      | some node =>
        have hfound : t.symlinkMetadata (absolute (here ++ [name])) = .ok node := by
          rw [hlookup, FileTree.child_there hchild]
          show t.nodeAt (here ++ [name]) = .ok node
          rw [FileTree.nodeAt, hchild]
        -- the first link ends the round on both sides; any other node is entered
        by_cases hlink : ∃ target, node.kind = .symlink target
        · obtain ⟨target, hkind⟩ := hlink
          refine .inr (.inr ⟨here, target, rest, ⟨hfree, name, node, rfl, hchild, hkind⟩, ?_,
            fun _ => FileTree.walk_link hskip hname.notParent hchild hkind rest⟩)
          rw [canonicalizeWalk_of_link hjoin hfound hkind, normalize_splice hhere hrest]
        · have hkind : ∀ target, node.kind ≠ .symlink target :=
            fun target hkind => hlink ⟨target, hkind⟩
          have hnext : ∀ other ∈ here ++ [name], PlainName other := by
            intro other hother
            rcases List.mem_append.mp hother with hother | hother
            · exact hhere other hother
            · rw [List.mem_singleton.mp hother]
              exact hname
          have hwalk : ∀ links, t.walk true links here (name :: rest) =
              t.walk true links (here ++ [name]) rest :=
            fun _ => FileTree.walk_enter hskip hname.notParent hchild hkind rest
          rw [canonicalizeWalk_of_other hjoin hfound hkind, List.append_cons here name rest]
          simp only [hwalk]
          exact ih hnext (hfree.snoc hchild hkind) hrest
    · rw [FileTree.child_of_not_directory hdirectory] at hlookup
      exact .inr (.inl ⟨_, _, canonicalizeWalk_of_error hjoin hlookup, fun _ =>
        FileTree.walk_of_not_directory hdirectory rest⟩)

end Rounds

/-! ## The loop and the kernel -/

/-- The texts that `canonicalize` comes to from `names`, with the links it has met. -/
inductive ComesTo (t : FileTree) (names : List Name) : Nat → List Name → Prop where
  | start : ComesTo t names 0 names
  | splice {hops text front target rest} : ComesTo t names hops text →
      FirstLink t text front target rest → ComesTo t names (hops + 1) (splice front target rest)

/-- The texts that are collapsed on the way are straight: the path itself, and every target
that is put in the place of its link. This is done for 40 links. -/
structure StraightPath (t : FileTree) (path : Bytes) : Prop where
  whole : t.Straight [] (FileTree.components path) []
  targets : ∀ hops text front target rest, hops < maxSymlinkHops →
    ComesTo t (collapse [] (FileTree.components path)) hops text →
      FirstLink t text front target rest →
        t.Straight (base front target) (FileTree.components target) rest

section Loop

variable {t : FileTree}

variable {front text : List Name} {target : Bytes}

theorem canonicalizeRound_absolute {hops : Nat} (h : ∀ name ∈ text, PlainName name) :
    canonicalizeRound t hops (absolute text) =
      canonicalizeWalk t hops (absolute []) (text.map .normal) := by
  obtain ⟨node, hnode, hkind⟩ := FileTree.isDirectory_root (t := t)
  have hroot : t.symlinkMetadata (absolute []) = .ok node := by
    rw [FileTree.symlinkMetadata_absolute (by simp) FileTree.linkFree_nil, FileTree.nodeAt, hnode]
  have hnolink : ∀ target, node.kind ≠ .symlink target := by
    intro target hlink
    rw [hkind] at hlink
    cases hlink
  unfold canonicalizeRound
  rw [components_absolute h]
  exact canonicalizeWalk_of_other rfl hroot hnolink

/-- A link is as good as the text that `canonicalize` goes on with. -/
theorem follow_splice {rest : List Name} {links : Nat} (hplain : ∀ name ∈ text, PlainName name)
    (h : FirstLink t text front target rest)
    (hstraight : t.Straight (base front target) (FileTree.components target) rest) :
    t.follow (links + 1) (base front target) (FileTree.components target ++ rest) =
      t.walk true links [] (splice front target rest) := by
  obtain ⟨hfree, name, node, rfl, hnode, hkind⟩ := h
  have hfront : ∀ name ∈ front, PlainName name := fun other hother =>
    hplain other (by simp [hother])
  have hbase : ∀ name ∈ base front target, PlainName name := by
    unfold base
    split
    · exact nofun
    · exact hfront
  have hparts : ∀ part ∈ FileTree.components target, separator ∉ part :=
    fun part hpart => not_mem_of_mem_splitOn hpart
  have hstart : t.walk true links [] (base front target ++ (FileTree.components target ++ rest)) =
      t.walk true links (base front target) (FileTree.components target ++ rest) := by
    refine FileTree.walk_linkFree hbase ?_ _
    unfold base
    split
    · exact FileTree.linkFree_nil
    · exact hfree
  show t.walk true links _ _ = _
  rw [← hstart]
  exact FileTree.walk_collapse links hbase hparts hstraight

theorem plain_splice {rest : List Name} (hplain : ∀ name ∈ text, PlainName name)
    (h : FirstLink t text front target rest) :
    ∀ name ∈ splice front target rest, PlainName name := by
  obtain ⟨-, name, node, rfl, -, -⟩ := h
  intro other hother
  rcases List.mem_append.mp hother with hother | hother
  · refine FileTree.plain_collapse (fun part hpart => not_mem_of_mem_splitOn hpart) ?_ other hother
    unfold base
    split
    · exact nofun
    · exact fun other hother => hplain other (by simp [hother])
  · exact hplain other (by simp [hother])

/-- The loop finds what the kernel finds with the links that are left. -/
theorem canonicalizeLoop_iff {start : List Name}
    (hstraight : ∀ hops text front target rest, hops < maxSymlinkHops → ComesTo t start hops text →
      FirstLink t text front target rest →
        t.Straight (base front target) (FileTree.components target) rest) :
    ∀ {rounds hops : Nat} {text : List Name}, ComesTo t start hops text →
      (∀ name ∈ text, PlainName name) → hops ≤ maxSymlinkHops → maxSymlinkHops < rounds + hops →
      ∀ p, canonicalizeLoop t rounds hops (absolute text) = some (.ok p) ↔
        ∃ place, t.walk true (maxSymlinkHops - hops) [] text = .ok place ∧ p = absolute place := by
  intro rounds
  induction rounds with
  | zero =>
    intro hops text _ _ hle hlt
    omega
  | succ rounds ih =>
    intro hops text hcomes hplain hle hlt p
    have hnone : ∀ name ∈ ([] : List Name), PlainName name := by simp
    rw [canonicalizeLoop, canonicalizeRound_absolute hplain]
    rcases round_cases hnone FileTree.linkFree_nil hplain with ⟨hwalk, hkernel⟩ |
      ⟨code, error, hwalk, hkernel⟩ | ⟨front, target, rest, hlink, hwalk, hkernel⟩
    · rw [hwalk, hkernel]
      constructor
      · intro h
        exact ⟨text, rfl, (Except.ok.inj (Option.some.inj h)).symm⟩
      · rintro ⟨place, hplace, hp⟩
        rw [hp, ← Except.ok.inj hplace]
    · rw [hwalk, hkernel]
      constructor
      · rintro ⟨⟩
      · rintro ⟨place, ⟨⟩, -⟩
    · rw [hwalk, hkernel]
      by_cases hhops : hops + 1 > maxSymlinkHops
      · have hnolinks : maxSymlinkHops - hops = 0 := by omega
        rw [if_pos hhops, hnolinks]
        constructor
        · rintro ⟨⟩
        · rintro ⟨place, ⟨⟩, -⟩
      · have hlinks : maxSymlinkHops - hops = maxSymlinkHops - (hops + 1) + 1 := by omega
        rw [if_neg hhops, hlinks,
          follow_splice hplain hlink (hstraight _ _ _ _ _ (by omega) hcomes hlink)]
        exact ih (hcomes.splice hlink) (plain_splice hplain hlink) (by omega) (by omega) p

/-- **`canonicalize` is `realpath`** for an absolute path, if the texts that it collapses on
the way are straight: with more than 40 rounds it finds a path exactly if the kernel, with 40
links, finds a file there, and then it is the path without links of this file. -/
theorem canonicalize_iff {path : Bytes} (habsolute : isAbsolute path = true)
    (hstraight : StraightPath t path) {rounds : Nat} (hrounds : maxSymlinkHops < rounds)
    (p : Bytes) :
    canonicalize t rounds path = some (.ok p) ↔
      ∃ place, t.resolve true path = .ok place ∧ p = absolute place := by
  have hparts : ∀ part ∈ FileTree.components path, separator ∉ part :=
    fun part hpart => not_mem_of_mem_splitOn hpart
  have hnone : ∀ name ∈ ([] : List Name), PlainName name := by simp
  have hplain := FileTree.plain_collapse hparts hnone
  have hne : path ≠ [] := by
    rintro rfl
    cases habsolute
  have hresolve : t.resolve true path =
      t.walk true maxSymlinkHops [] (collapse [] (FileTree.components path)) := by
    have hwhole := FileTree.walk_collapse maxSymlinkHops hnone hparts hstraight.whole
    rw [List.append_nil, List.append_nil, List.nil_append] at hwhole
    unfold FileTree.resolve
    rw [if_neg hne]
    exact hwhole
  rw [hresolve]
  unfold canonicalize
  rw [normalize_eq habsolute]
  exact canonicalizeLoop_iff hstraight.targets .start hplain (Nat.zero_le _) hrounds p

end Loop

/-! ## A `..` behind a link -/

theorem FirstLink.front_le {t : FileTree} {rest : List Name}
    (h : FirstLink t text front target rest) (h' : FirstLink t text front' target' rest') :
    front'.length ≤ front.length := by
  obtain ⟨-, name, node, rfl, hnode, hkind⟩ := h
  obtain ⟨hfree', name', node', htext, -, -⟩ := h'
  by_contra hlt
  have hlong : front' <+: front ++ name :: rest := ⟨name' :: rest', htext.symm⟩
  have hshort : front ++ [name] <+: front ++ name :: rest := ⟨rest, (List.append_cons ..).symm⟩
  have hprefix : front ++ [name] <+: front' := by
    refine List.prefix_of_prefix_length_le hshort hlong ?_
    rw [List.length_append, List.length_singleton]
    omega
  obtain ⟨other, hother, hnolink⟩ := hfree' _ hprefix
  rw [hnode] at hother
  cases hother
  exact hnolink _ hkind

theorem FirstLink.unique {t : FileTree} {rest : List Name} (h : FirstLink t text front target rest)
    (h' : FirstLink t text front' target' rest') :
    front' = front ∧ target' = target ∧ rest' = rest := by
  have hlength := Nat.le_antisymm (h.front_le h') (h'.front_le h)
  obtain ⟨-, name, node, rfl, hnode, hkind⟩ := h
  obtain ⟨-, name', node', htext, hnode', hkind'⟩ := h'
  obtain ⟨rfl, hrest⟩ := List.append_inj htext.symm hlength
  cases hrest
  rw [hnode] at hnode'
  cases hnode'
  rw [hkind] at hkind'
  cases hkind'
  exact ⟨rfl, rfl, rfl⟩

/-- The file `/c/x`, the directory `/c/d` with the link `/link` to it, and two links by a `..` to
the file: `/a` behind the link, `/b` behind the directory. -/
def dotdotTree : FileTree where
  entries :=
    [([], directoryNode), ([ascii "c"], directoryNode), ([ascii "c", ascii "d"], directoryNode),
      ([ascii "c", ascii "x"], ⟨.regular (ascii "hi"), 7, 0o644, 0, 0⟩),
      ([ascii "link"], ⟨.symlink (ascii "c/d"), 7, 0o777, 0, 0⟩),
      ([ascii "a"], ⟨.symlink (ascii "link/../x"), 7, 0o777, 0, 0⟩),
      ([ascii "b"], ⟨.symlink (ascii "c/d/../x"), 7, 0o777, 0, 0⟩)]
  nodup := by decide +kernel
  rooted := by decide +kernel
  placed := by decide +kernel

/-- The kernel finds the file at `/a`, and `canonicalize` finds nothing. -/
theorem dotdot_behind_link : ¬ ∀ p, canonicalize dotdotTree 41 (ascii "/a") = some (.ok p) ↔
    ∃ place, dotdotTree.resolve true (ascii "/a") = .ok place ∧ p = absolute place := by
  have hcode : canonicalize dotdotTree 41 (ascii "/a") = some (.error .notFound) := by
    decide +kernel
  have hkernel : dotdotTree.resolve true (ascii "/a") = .ok [ascii "c", ascii "x"] := by
    decide +kernel
  intro h
  have hfound := (h (absolute [ascii "c", ascii "x"])).mpr ⟨_, hkernel, rfl⟩
  rw [hcode] at hfound
  cases hfound

theorem FirstLink.not_linkFree {t : FileTree} {rest : List Name}
    (h : FirstLink t text front target rest) : ¬ t.LinkFree text := by
  obtain ⟨-, name, node, rfl, hnode, hkind⟩ := h
  intro hfree
  obtain ⟨other, hother, hnolink⟩ := hfree (front ++ [name]) ⟨rest, (List.append_cons ..).symm⟩
  rw [hnode] at hother
  cases hother
  exact hnolink _ hkind

theorem dotdotTree_firstLink : FirstLink dotdotTree [ascii "b"] [] (ascii "c/d/../x") [] where
  free := FileTree.linkFree_nil
  link := ⟨ascii "b", ⟨.symlink (ascii "c/d/../x"), 7, 0o777, 0, 0⟩, rfl, by decide +kernel, rfl⟩

theorem dotdotTree_linkFree : dotdotTree.LinkFree [ascii "c", ascii "x"] := by
  have hdirectory : dotdotTree.node [ascii "c"] = some directoryNode := by decide +kernel
  have hfile : dotdotTree.node [ascii "c", ascii "x"] =
      some ⟨.regular (ascii "hi"), 7, 0o644, 0, 0⟩ := by
    decide +kernel
  exact (FileTree.linkFree_nil.snoc hdirectory nofun).snoc hfile nofun

theorem dotdotTree_straight : StraightPath dotdotTree (ascii "/b") where
  whole := ⟨nofun, trivial, trivial⟩
  targets := by
    have hsplice : splice [] (ascii "c/d/../x") [] = [ascii "c", ascii "x"] := by decide +kernel
    intro hops text front target rest hhops htext hlink
    have hcases : text = [ascii "b"] ∨ text = [ascii "c", ascii "x"] := by
      clear hlink hhops
      induction htext with
      | start => exact .inl rfl
      | splice _ hlink ih =>
        rcases ih with rfl | rfl
        · obtain ⟨rfl, rfl, rfl⟩ := dotdotTree_firstLink.unique hlink
          exact .inr hsplice
        · exact absurd dotdotTree_linkFree hlink.not_linkFree
    rcases hcases with rfl | rfl
    · obtain ⟨rfl, rfl, rfl⟩ := dotdotTree_firstLink.unique hlink
      have hparts : FileTree.components (ascii "c/d/../x") =
          [ascii "c", ascii "d", [46, 46], ascii "x"] := by
        decide +kernel
      have hchild : dotdotTree.node ([] ++ [ascii "c"]) = some directoryNode := by decide +kernel
      have hdirectory : dotdotTree.node [ascii "c", ascii "d"] = some directoryNode := by
        decide +kernel
      rw [hparts]
      refine ⟨trivial, trivial, ?_, trivial, trivial⟩
      rw [if_neg (by decide), if_pos rfl]
      intro taken htaken place hplace
      obtain ⟨links, hlinks⟩ := hplace
      have hwalk : dotdotTree.walk true links [] [ascii "c"] = .ok place := hlinks
      rw [FileTree.walk_enter (by decide) (by decide) hchild nofun, FileTree.walk_nil] at hwalk
      cases hwalk
      cases (show some (ascii "d") = some taken from htaken)
      exact ⟨_, hdirectory, rfl⟩
    · exact absurd dotdotTree_linkFree hlink.not_linkFree

/-- Behind the directory the two agree. -/
theorem dotdot_behind_directory : canonicalize dotdotTree 41 (ascii "/b") =
    some (.ok (absolute [ascii "c", ascii "x"])) := by
  refine (canonicalize_iff rfl dotdotTree_straight (Nat.lt_succ_self _) _).mpr ⟨_, ?_, rfl⟩
  decide +kernel

end TuxStack.FsHelper
