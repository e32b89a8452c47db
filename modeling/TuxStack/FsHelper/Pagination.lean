import TuxStack.FsHelper.CommandLine

/-!
# Paging through a directory

The `list` command of `crates/tuxstack-fs-helper/src/list.rs`, run again and again with the
cursor of the page before, until a page has none.

A page is cut off the sorted names, and its cursor, its last name, leaves exactly the names
behind it for the next run (`keepsName_behind`). A page of no names while there are some has
no last name, and the command panics there: `list_paginates_iff`.
-/

namespace TuxStack.FsHelper

open Vfs Tar Files SortedKeys Result

/-- The lines of the `list` command for its arguments, if it does not panic. -/
def runList (t : FileTree) (args : List Bytes) : Option (List HelperMessage) :=
  match parseFlags args with
  | .error code => some [.error code]
  | .ok flags => list t flags.toFlags

/-- The cursor that the last line of a page returns. -/
def nextCursor (lines : List HelperMessage) : Option Bytes :=
  match lines.getLast? with
  | some (.finish _ next) => next
  | _ => none

/-- The pages from a cursor on, if there are at most `rounds` and none panics. -/
def listPages (t : FileTree) (args : List Bytes) :
    Nat → Option Bytes → Option (List (List HelperMessage))
  | 0, _ => none
  | rounds + 1, cursor =>
    (runList t (args ++ (cursor.map cursorArgs).getD [])).bind fun lines =>
      match nextCursor lines with
      | none => some [lines]
      | some next => (listPages t args rounds (some next)).map fun pages => lines :: pages

/-- The lines of a page with these names, whose end says that it is truncated exactly if it
has a cursor. -/
def Page (lines : List HelperMessage) (names : List Bytes) : Prop :=
  ∃ (entries : List (Bytes × Bytes × MessageFields)) (truncated : Bool) (next : Option Bytes),
    lines = (entries.map fun e => .entry (encodeBase64 e.1) e.2.1 e.2.2) ++
      [.finish truncated next] ∧
    entries.map Prod.fst = names ∧ (truncated = true ↔ next.isSome)

/-- A name of a directory that `list` shows. -/
structure Visible (flags : Flags) (relative : Bytes) (names : List Bytes)
    (name : Bytes) : Prop where
  mem : name ∈ names
  shownInRoot : ¬ (relative = [] ∧ hiddenInRoot name = true)
  notHidden : flags.showHidden = true ∨ name.head? ≠ some dot

/-- The repeated command comes to an end without a panic, and its pages have every visible
name once, in byte order. -/
def Paginated (t : FileTree) (args : List Bytes) (visible : Bytes → Prop) : Prop :=
  ∃ (rounds : Nat) (pages : List (List HelperMessage)) (names : List (List Bytes)),
    listPages t args rounds none = some pages ∧ List.Forall₂ Page pages names ∧
    names.flatten.Pairwise (fun a b => compare a b = .lt) ∧
    ∀ name, name ∈ names.flatten ↔ visible name

/-! ## One page -/

/-- A page is cut off the front; there is one if it would have a last name. -/
theorem pageOf_cases {limit : Option Nat} {names : List Bytes} (h : limit ≠ some 0 ∨ names = []) :
    ∃ page rest, names = page ++ rest ∧
      ((rest = [] ∧ pageOf limit names = some (page, false, none)) ∨
        ∃ last, page.getLast? = some last ∧
          pageOf limit names = some (page, true, some (encodeBase64 last))) := by
  have hwhole : ∀ n, names.length ≤ n → names.take n = names := fun n => List.take_of_length_le
  cases limit with
  | none =>
    refine ⟨names, [], (List.append_nil _).symm, .inl ⟨rfl, ?_⟩⟩
    simp [pageOf]
  | some limit =>
    by_cases hle : names.length ≤ limit
    · refine ⟨names, [], (List.append_nil _).symm, .inl ⟨rfl, ?_⟩⟩
      simp [pageOf, Nat.min_eq_right hle]
    · have hlt : limit < names.length := Nat.lt_of_not_le hle
      have hnames : names ≠ [] := by
        rintro rfl
        simp at hlt
      have hlimit : limit ≠ 0 := by
        rintro rfl
        rcases h with h | h
        · exact h rfl
        · exact hnames h
      have hpage : names.take limit ≠ [] := by
        simp [List.take_eq_nil_iff, hlimit, hnames]
      obtain ⟨last, hlast⟩ : ∃ last, (names.take limit).getLast? = some last :=
        ⟨_, List.getLast?_eq_some_getLast hpage⟩
      refine ⟨names.take limit, names.drop limit, (List.take_append_drop ..).symm,
        .inr ⟨last, hlast, ?_⟩⟩
      simp [pageOf, Nat.min_eq_left (Nat.le_of_lt hlt), hlt, hlast]

/-- **A page of no names** while there are some is a panic. -/
theorem pageOf_zero {names : List Bytes} (h : names ≠ []) : pageOf (some 0) names = none := by
  have hpos := List.length_pos_iff.mpr h
  simp [pageOf, hpos]

theorem keepsName_behind {all front rest : List Bytes} {last : Bytes}
    (hsorted : all.Pairwise fun a b => compare a b = .lt) (hall : all = front ++ rest)
    (hlast : front.getLast? = some last) :
    all.filter (fun name => !(compare name last).isLE) = rest := by
  obtain ⟨front, rfl⟩ : ∃ start, front = start ++ [last] :=
    ⟨front.dropLast, (List.dropLast_append_getLast? _ hlast).symm⟩
  subst hall
  obtain ⟨hfront, -, hacross⟩ := List.pairwise_append.mp hsorted
  have hbehind : ∀ name ∈ rest, (compare name last).isLE = false := by
    intro name hname
    rw [Std.OrientedOrd.eq_swap (a := name), hacross last (by simp) name hname]
    rfl
  have hbefore : ∀ name ∈ front ++ [last], (compare name last).isLE = true := by
    intro name hname
    rcases List.mem_append.mp hname with hname | hname
    · rw [(List.pairwise_append.mp hfront).2.2 name hname last List.mem_cons_self]
      rfl
    · rw [List.mem_singleton.mp hname, Std.ReflOrd.compare_self]
      rfl
  have hnone : (front ++ [last]).filter (fun name => !(compare name last).isLE) = [] := by
    refine List.filter_eq_nil_iff.mpr fun name hname => ?_
    rw [hbefore name hname]
    simp
  have hwhole : rest.filter (fun name => !(compare name last).isLE) = rest := by
    refine List.filter_eq_self.mpr fun name hname => ?_
    rw [hbehind name hname]
    rfl
  rw [List.filter_append, hnone, hwhole, List.nil_append]

/-! ## All pages of a directory -/

/-- The cursor with which the names `front` are behind. -/
inductive CursorAfter : List Bytes → Option Bytes → Prop where
  | start : CursorAfter [] none
  | after {front : List Bytes} {last : Bytes} (h : front.getLast? = some last) :
      CursorAfter front (some (encodeBase64 last))

section Directory

variable {t : FileTree} {flags : Flags} {dir relative : Bytes} {place : List Name} {node : FileNode}
  (hdir : resolveToken flags.root flags.token = .ok dir)
  (hrelative : decodeRelative flags.token = .ok relative)
  (hresolve : t.resolve true dir = .ok place) (hnode : t.node place = some node)
  (hkind : node.kind = .directory)

def shownNames (t : FileTree) (flags : Flags) (relative : Bytes) (place : List Name) :
    List Bytes :=
  sortByKey id ((t.names place).filter (keepsName flags (relative = []) none))

theorem shownNames_sorted (t : FileTree) (flags : Flags) (relative : Bytes) (place : List Name) :
    (shownNames t flags relative place).Pairwise fun a b => compare a b = .lt := by
  refine pairwise_lt_sortByKey id ?_
  rw [List.map_id]
  exact (FileTree.nodup_names place).filter _

theorem mem_shownNames {name : Bytes} : name ∈ shownNames t flags relative place ↔
    Visible flags relative (t.names place) name := by
  rw [shownNames, (perm_sortByKey id _).mem_iff, List.mem_filter]
  constructor
  · rintro ⟨hmem, hkeeps⟩
    simp only [keepsName, Bool.and_true, Bool.and_eq_true, Bool.not_eq_true', Bool.or_eq_true,
      decide_eq_true_eq, Bool.and_eq_false_iff, decide_eq_false_iff_not] at hkeeps
    obtain ⟨⟨-, hroot⟩, hhidden⟩ := hkeeps
    refine ⟨hmem, ?_, hhidden⟩
    rintro ⟨hbrowse, hname⟩
    rcases hroot with hroot | hroot
    · exact hroot hbrowse
    · rw [hname] at hroot
      cases hroot
  · rintro ⟨hmem, hroot, hhidden⟩
    have hvalid := FileTree.validName_of_mem_names hmem
    have hself : name ≠ [dot] := hvalid.notSelf
    have hparent : name ≠ [dot, dot] := hvalid.notParent
    refine ⟨hmem, ?_⟩
    unfold keepsName
    simpa [hself, hparent, imp_iff_not_or, or_comm] using And.intro hroot hhidden

include hdir hrelative hresolve hnode hkind

theorem listedNames_after {front rest : List Bytes} {cursor : Option Bytes}
    (hall : shownNames t flags relative place = front ++ rest)
    (hcursor : CursorAfter front cursor) :
    listedNames t { flags with cursor := cursor } = .ok (dir, relative, rest) := by
  unfold listedNames
  have hmetadata : t.metadata dir = .ok node := FileTree.metadata_eq_ok.mpr ⟨place, hresolve, hnode⟩
  refine bind_eq_ok.mpr ⟨dir, hdir, bind_eq_ok.mpr ⟨relative, liftToken_eq_ok.mpr hrelative,
    bind_eq_ok.mpr ⟨node, liftIo_eq_ok.mpr hmetadata, ?_⟩⟩⟩
  rw [if_neg (not_not.mpr hkind)]
  refine bind_eq_ok.mpr ⟨t.names place,
    liftIo_eq_ok.mpr (FileTree.readDir_directory hresolve hnode hkind), ?_⟩
  cases hcursor with
  | start =>
    rw [List.nil_append] at hall
    rw [← hall]
    rfl
  | @after _ last hlast =>
    have hdecoded : (decodeBase64 (encodeBase64 last)).map some = .ok (some last) := by
      rw [decodeBase64_encode]
      rfl
    have hsorted := shownNames_sorted t flags relative place
    have hbehind := keepsName_behind hsorted hall hlast
    have hperm : rest.Perm ((t.names place).filter
        (keepsName { flags with cursor := some (encodeBase64 last) }
          (relative = []) (some last))) := by
      have hfilter := (perm_sortByKey id ((t.names place).filter
        (keepsName flags (relative = []) none))).filter fun name => !(compare name last).isLE
      rw [List.filter_filter] at hfilter
      rw [← hbehind]
      refine hfilter.trans (List.Perm.of_eq (List.filter_congr fun name _ => ?_))
      simp [keepsName, Bool.and_comm]
    have hrest : rest.Pairwise fun a b => compare a b = .lt :=
      (List.pairwise_append.mp (hall ▸ hsorted)).2.1
    refine bind_eq_ok.mpr ⟨some last, liftToken_eq_ok.mpr hdecoded, ?_⟩
    exact congrArg (fun names => Except.ok (dir, relative, names)) (sortByKey_eq id hperm hrest)

/-- **One run** of the command behind a cursor: a page off the front of what is left. -/
theorem list_after {front rest : List Bytes} {cursor : Option Bytes}
    (hall : shownNames t flags relative place = front ++ rest) (hcursor : CursorAfter front cursor)
    (hlimit : flags.limit ≠ some 0 ∨ rest = []) :
    ∃ lines page rest', list t { flags with cursor := cursor } = some lines ∧ Page lines page ∧
      rest = page ++ rest' ∧ ((rest' = [] ∧ nextCursor lines = none) ∨
        ∃ last, page.getLast? = some last ∧ nextCursor lines = some (encodeBase64 last)) := by
  have hlisted := listedNames_after hdir hrelative hresolve hnode hkind hall hcursor
  obtain ⟨page, rest', hpage, hpageOf⟩ := pageOf_cases hlimit
  have hmessages : ∀ name ∈ page, ∃ childTok fields, True ∧
      pageMessage t dir relative name = .ok (.entry (encodeBase64 name) childTok fields) := by
    intro name hname
    have hshown : name ∈ shownNames t flags relative place := by
      rw [hall, hpage]
      simp [hname]
    obtain ⟨childTok, fields, -, -, hmessage⟩ := pageMessage_child hdir hrelative hresolve hnode
      hkind (mem_shownNames.mp hshown).mem flags
    exact ⟨childTok, fields, trivial, hmessage⟩
  obtain ⟨entries, hemit, hnames, -⟩ := emitPage_ok t dir relative (P := fun _ => True) hmessages
  have hlist : ∀ truncated next, pageOf flags.limit rest = some (page, truncated, next) →
      list t { flags with cursor := cursor } =
        some ((entries.map fun e => .entry (encodeBase64 e.1) e.2.1 e.2.2) ++
          [.finish truncated next]) := by
    intro truncated next hcut
    unfold list
    rw [hlisted]
    dsimp only
    rw [hcut, Option.map_some]
    simp only [hemit]
  rcases hpageOf with ⟨hend, hcut⟩ | ⟨last, hlast, hcut⟩
  · exact ⟨_, page, rest', hlist _ _ hcut, ⟨entries, false, none, rfl, hnames, by simp⟩, hpage,
      .inl ⟨hend, by simp [nextCursor]⟩⟩
  · exact ⟨_, page, rest', hlist _ _ hcut, ⟨entries, true, _, rfl, hnames, by simp⟩, hpage,
      .inr ⟨last, hlast, by simp [nextCursor]⟩⟩

/-- **All runs** from a cursor on: what is left is paged through, as every page takes a name. -/
theorem listPages_after {args : List Bytes}
    (hrun : ∀ cursor, runList t (args ++ (cursor.map cursorArgs).getD []) =
      list t { flags with cursor := cursor }) :
    ∀ {rounds : Nat} {front rest : List Bytes} {cursor : Option Bytes}, rest.length < rounds →
      shownNames t flags relative place = front ++ rest → CursorAfter front cursor →
      (flags.limit ≠ some 0 ∨ rest = []) →
      ∃ pages names, listPages t args rounds cursor = some pages ∧ List.Forall₂ Page pages names ∧
        names.flatten = rest := by
  intro rounds
  induction rounds with
  | zero =>
    intro front rest cursor hlt
    exact absurd hlt (Nat.not_lt_zero _)
  | succ rounds ih =>
    intro front rest cursor hlt hall hcursor hlimit
    obtain ⟨lines, page, rest', hlist, hpage, hrest, hnext⟩ :=
      list_after hdir hrelative hresolve hnode hkind hall hcursor hlimit
    rw [listPages, hrun, hlist, Option.bind_some]
    rcases hnext with ⟨rfl, hnext⟩ | ⟨last, hlast, hnext⟩
    · rw [hnext]
      exact ⟨[lines], [page], rfl, .cons hpage .nil, by simp [hrest]⟩
    · have hne : page ≠ [] := by
        rintro rfl
        cases hlast
      have hpos := List.length_pos_iff.mpr hne
      have hshorter : rest'.length < rounds := by
        rw [hrest, List.length_append] at hlt
        omega
      have hafter : CursorAfter (front ++ page) (some (encodeBase64 last)) :=
        .after (by rw [List.getLast?_append_of_ne_nil _ hne, hlast])
      have hwhole : shownNames t flags relative place = (front ++ page) ++ rest' := by
        rw [hall, hrest, List.append_assoc]
      have hleft : flags.limit ≠ some 0 ∨ rest' = [] :=
        hlimit.imp_right fun hnil => (List.append_eq_nil_iff.mp (hrest.symm.trans hnil)).2
      obtain ⟨pages, names, hpages, hforall, hflat⟩ := ih hshorter hwhole hafter hleft
      rw [hnext]
      dsimp only
      rw [hpages]
      exact ⟨lines :: pages, page :: names, rfl, .cons hpage hforall, by simp [hflat, hrest]⟩

/-- A limit of zero: the first run panics when there is a name to show. -/
theorem list_zero (hcursor : flags.cursor = none) (hlimit : flags.limit = some 0)
    (hshown : shownNames t flags relative place ≠ []) : list t flags = none := by
  have hlisted := listedNames_after hdir hrelative hresolve hnode hkind
    (List.nil_append _).symm .start
  have hflags : { flags with cursor := none } = flags := by
    rw [← hcursor]
  rw [hflags] at hlisted
  unfold list
  rw [hlisted]
  dsimp only
  rw [hlimit, pageOf_zero hshown]
  rfl

end Directory

/-! ## The pages of a command -/

theorem runList_cursor {args : List Bytes} {flags : CommandFlags} (t : FileTree)
    (hflags : parseFlags args = .ok flags) (hcursor : flags.cursor = none) (cursor : Option Bytes) :
    runList t (args ++ (cursor.map cursorArgs).getD []) =
      list t { flags.toFlags with cursor := cursor } := by
  unfold runList
  cases cursor with
  | none =>
    rw [Option.map_none, Option.getD_none, List.append_nil, hflags, ← hcursor]
  | some cursor =>
    rw [Option.map_some, Option.getD_some, parseFlags_cursor hflags cursor]

/-- **Paging is complete** for every limit but zero, and for zero when there is nothing to
show: then the repeated command ends, without a panic, and its pages have every visible name
once, in byte order. -/
theorem list_paginates_iff {t : FileTree} {args : List Bytes} {flags : CommandFlags}
    {dir relative : Bytes} {names : List Bytes} (hflags : parseFlags args = .ok flags)
    (hcursor : flags.cursor = none) (hdir : resolveToken flags.root flags.token = .ok dir)
    (hrelative : decodeRelative flags.token = .ok relative) (hread : t.readDir dir = .ok names) :
    Paginated t args (Visible flags.toFlags relative names) ↔
      flags.limit ≠ some 0 ∨ ∀ name, ¬ Visible flags.toFlags relative names name := by
  obtain ⟨place, hresolve, node, hnode, hkind, rfl⟩ := FileTree.readDir_eq_ok.mp hread
  have hrun := runList_cursor t hflags hcursor
  have hall : shownNames t flags.toFlags relative place =
    [] ++ shownNames t flags.toFlags relative place :=
    (List.nil_append _).symm
  constructor
  · rintro ⟨rounds, pages, pageNames, hpages, -, -, hmem⟩
    by_contra hnot
    obtain ⟨hlimit, hvisible⟩ := not_or.mp hnot
    rw [not_not] at hlimit
    have hshown : shownNames t flags.toFlags relative place ≠ [] := by
      intro hnil
      refine hvisible fun name hname => ?_
      have hmem := mem_shownNames.mpr hname
      rw [hnil] at hmem
      cases hmem
    have hpanic := list_zero hdir hrelative hresolve hnode hkind hcursor hlimit hshown
    have hfirst := hrun none
    rw [← hcursor] at hfirst
    cases rounds with
    | zero => cases hpages
    | succ rounds =>
      rw [listPages, ← hcursor, hfirst, hpanic] at hpages
      cases hpages
  · intro hlimit
    have hleft : flags.limit ≠ some 0 ∨ shownNames t flags.toFlags relative place = [] := by
      refine hlimit.imp_right fun hnone => List.eq_nil_iff_forall_not_mem.mpr fun name hname => ?_
      exact hnone name (mem_shownNames.mp hname)
    obtain ⟨pages, pageNames, hpages, hforall, hflat⟩ :=
      listPages_after hdir hrelative hresolve hnode hkind hrun (Nat.lt_succ_self _)
        hall .start hleft
    refine ⟨_, pages, pageNames, hpages, hforall, ?_, fun name => ?_⟩
    · rw [hflat]
      exact shownNames_sorted ..
    · rw [hflat]
      exact mem_shownNames

def volumeArgs (limit : Bytes) : List Bytes :=
  [ascii "--root", ascii "/mnt/data", ascii "--path-token", ascii "v1:", ascii "--show-hidden",
    ascii "--limit", limit]

def pagedFlags (limit : Nat) : CommandFlags :=
  { CommandFlags.standard with
    root := ascii "/mnt/data"
    token := ascii "v1:"
    showHidden := true
    limit := some limit }

/-- The volume with two more log files. -/
def logsTree : FileTree where
  entries := volumeTree.entries ++ [ascii "old.log", ascii ".db"].map fun name =>
    ([ascii "mnt", ascii "data", name], ⟨.regular (ascii "hi"), 7, 0o644, 0, 0⟩)
  nodup := by decide +kernel
  rooted := by decide +kernel
  placed := by decide +kernel

/-- Its three visible names, in pages of one name. -/
theorem volume_in_pages : Paginated logsTree (volumeArgs (ascii "1"))
    (Visible (pagedFlags 1).toFlags []
      [ascii "run", ascii "app.log", ascii "old.log", ascii ".db"]) := by
  have hflags : parseFlags (volumeArgs (ascii "1")) = .ok (pagedFlags 1) := by rfl
  have hdir : resolveToken (pagedFlags 1).root (pagedFlags 1).token = .ok (ascii "/mnt/data") := by
    decide +kernel
  have hrelative : decodeRelative (pagedFlags 1).token = .ok [] := by decide +kernel
  have hread : logsTree.readDir (ascii "/mnt/data") =
      .ok [ascii "run", ascii "app.log", ascii "old.log", ascii ".db"] := by
    decide +kernel
  have hlimit : (pagedFlags 1).limit ≠ some 0 := by decide
  exact (list_paginates_iff hflags rfl hdir hrelative hread).mpr (.inl hlimit)

/-- **A limit of zero panics**: it is accepted, the volume has a log file to show, and the
first run has no last line. -/
theorem zero_limit_panics :
    parseFlags (volumeArgs (ascii "0")) = .ok (pagedFlags 0) ∧
    volumeTree.readDir (ascii "/mnt/data") = .ok [ascii "run", ascii "app.log"] ∧
    runList volumeTree (volumeArgs (ascii "0")) = none ∧
    ¬ Paginated volumeTree (volumeArgs (ascii "0"))
      (Visible (pagedFlags 0).toFlags [] [ascii "run", ascii "app.log"]) := by
  have hpanic : runList volumeTree (volumeArgs (ascii "0")) = none := by decide +kernel
  refine ⟨by rfl, by decide +kernel, hpanic, ?_⟩
  rintro ⟨rounds, pages, names, hpages, -, -, -⟩
  cases rounds with
  | zero => cases hpages
  | succ rounds =>
    rw [listPages, Option.map_none, Option.getD_none, List.append_nil, hpanic] at hpages
    cases hpages

end TuxStack.FsHelper
