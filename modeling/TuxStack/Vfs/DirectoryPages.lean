import TuxStack.Vfs.Adapter

/-!
# Reading a directory page by page

The end of `Filesystem::readdir` in `crates/tuxstack-vfs/src/adapter.rs`: the rows from the
offset on go into the reply until it is full. The kernel asks again with the offset of the
last row it got. Every request lists the directory anew, and other requests come between.

While the directory has the same names, a reader gets each of them once, in the order of the
listing (`received_each_once`).
-/

namespace TuxStack.Vfs

open Runs Result

namespace Adapter

/-- `Filesystem::readdir` with the rows from `offset` on, and the offset behind each of them,
in a reply that has room for `room` rows. -/
def readdirPage (a : Adapter) (provider : Provider) (inode offset room : Nat) :
    Except VfsError (List (DirRow × Nat)) × Adapter :=
  match a.readdir provider inode with
  | (.error e, a) => (.error e, a)
  | (.ok rows, a) => (.ok (((rows.zipIdx 1).drop offset).take room), a)

def pageNames (page : List (DirRow × Nat)) : List Bytes := page.map fun row => row.1.name

def rowNames (entries : List VirtualDirectoryEntry) : List Bytes :=
  [dot] :: dotDot :: entries.map (·.name.bytes)

variable {a : Adapter} {provider : Provider} {inode : Nat} {path : VirtualPath}

theorem names_cacheEntries {entries : List VirtualDirectoryEntry} {rows : List DirRow}
    (h : (cacheEntries path a entries).1 = .ok rows) :
    rows.map (·.name) = entries.map (·.name.bytes) := by
  induction entries generalizing a rows with
  | nil =>
    cases h
    rfl
  | cons entry entries ih =>
    unfold cacheEntries at h
    split at h
    · cases h
    · split at h
      · cases h
      · split at h
        · cases h
        · next hrest =>
          cases h
          rw [List.map_cons, List.map_cons, ih (congrArg Prod.fst hrest)]

theorem names_readdir {rows : List DirRow} (h : (a.readdir provider inode).1 = .ok rows) :
    ∃ node entries, a.listed provider inode = .ok (node, entries) ∧
      rows.map (·.name) = rowNames entries := by
  unfold readdir at h
  split at h
  · cases h
  · next node entries hlisted =>
    refine ⟨node, entries, hlisted, ?_⟩
    split at h
    · cases h
    · next hrows =>
      cases h
      rw [List.map_cons, List.map_cons, names_cacheEntries (congrArg Prod.fst hrows)]
      rfl

/-- A page has the names behind the offset, and the offset behind its last row is the offset
of the next page. -/
theorem names_readdirPage {offset room : Nat} {page : List (DirRow × Nat)}
    (h : (a.readdirPage provider inode offset room).1 = .ok page) :
    ∃ node entries, a.listed provider inode = .ok (node, entries) ∧
      pageNames page = ((rowNames entries).drop offset).take room ∧
      ∀ row ∈ page.getLast?, row.2 = offset + page.length := by
  unfold readdirPage at h
  split at h
  · cases h
  · next rows a' hrows =>
    cases h
    obtain ⟨node, entries, hlisted, hnames⟩ := names_readdir (congrArg Prod.fst hrows)
    refine ⟨node, entries, hlisted, ?_, ?_⟩
    · rw [pageNames, List.map_take, List.map_drop, ← hnames]
      congr 2
      show (rows.zipIdx 1).map (DirRow.name ∘ Prod.fst) = _
      rw [← List.map_map, List.zipIdx_map_fst]
    · intro row hrow
      rw [Option.mem_def, List.getLast?_eq_getElem?] at hrow
      obtain ⟨hlt, rfl⟩ := List.getElem?_eq_some_iff.mp hrow
      rw [List.getElem_take, List.getElem_drop, List.getElem_zipIdx]
      dsimp only
      omega

end Adapter

/-! ## A reader -/

structure DirectoryReader where
  adapter : Adapter
  offset : Nat := 0
  received : List Bytes := []
  ended : Bool := false

/-- A request of the reader, or another request; each with the provider that it finds. -/
inductive ReaderAction where
  | page (provider : Provider) (room : Nat)
  | other (provider : Provider) (call : Adapter.Call)

namespace DirectoryReader

open Adapter

/-- The reader takes a reply. -/
def take (s : DirectoryReader) (page : List (DirRow × Nat)) : DirectoryReader :=
  match page.getLast? with
  | none => { s with ended := true }
  | some row => { s with offset := row.2, received := s.received ++ pageNames page }

def step (inode : Nat) (s : DirectoryReader) : ReaderAction → DirectoryReader
  | .page provider room =>
    match s.adapter.readdirPage provider inode s.offset room with
    | (.error _, a) => { s with adapter := a }
    | (.ok page, a) => { s with adapter := a }.take page
  | .other provider call => { s with adapter := s.adapter.after provider call }

def machine (inode : Nat) : Machine DirectoryReader ReaderAction where
  init s := ∃ a : Adapter, s = { adapter := a }
  step s action := some (s.step inode action)

/-- A reply has room for a row, and the directory has these names. -/
def Lists (inode : Nat) (names : List Bytes) (s : DirectoryReader) (action : ReaderAction) : Prop :=
  ∀ provider room, action = .page provider room → 0 < room ∧
    ∀ node entries, s.adapter.listed provider inode = .ok (node, entries) →
      rowNames entries = names

/-- What a reader of `names` has received. -/
structure UpToOffset (names : List Bytes) (s : DirectoryReader) : Prop where
  received : s.received = names.take s.offset
  ended : s.ended = true → names.length ≤ s.offset

variable {s : DirectoryReader} {inode : Nat} {names : List Bytes}

theorem UpToOffset.take {page : List (DirRow × Nat)} {room : Nat} (h : s.UpToOffset names)
    (hroom : 0 < room)
    (hpage : pageNames page = (names.drop s.offset).take room)
    (hlast : ∀ row ∈ page.getLast?, row.2 = s.offset + page.length) :
    (s.take page).UpToOffset names := by
  unfold DirectoryReader.take
  split
  · next hrow =>
    -- an empty page: there is nothing behind the offset
    refine ⟨h.received, fun _ => ?_⟩
    rw [List.getLast?_eq_none_iff.mp hrow] at hpage
    rcases List.take_eq_nil_iff.mp hpage.symm with hzero | hnil
    · omega
    · exact List.drop_eq_nil_iff.mp hnil
  · next row hrow =>
    have hfront : pageNames page <+: names.drop s.offset := hpage ▸ List.take_prefix ..
    have hlength : (pageNames page).length = page.length := List.length_map _
    refine ⟨?_, fun hended => ?_⟩
    · show s.received ++ _ = names.take row.2
      rw [hlast row hrow, List.take_add, h.received, ← hlength,
        ← List.prefix_iff_eq_take.mp hfront]
    · show names.length ≤ row.2
      rw [hlast row hrow]
      exact (h.ended hended).trans (Nat.le_add_right ..)

theorem UpToOffset.step {action : ReaderAction} (h : s.UpToOffset names)
    (hlists : s.Lists inode names action) : (s.step inode action).UpToOffset names := by
  cases action with
  | other provider call => exact { h with }
  | page provider room =>
    obtain ⟨hroom, hnames⟩ := hlists provider room rfl
    unfold DirectoryReader.step
    dsimp only
    split
    · exact { h with }
    · next page a hpage =>
      obtain ⟨node, entries, hlisted, hpage, hlast⟩ :=
        names_readdirPage (congrArg Prod.fst hpage)
      rw [hnames node entries hlisted] at hpage
      exact UpToOffset.take (s := { s with adapter := a }) { h with } hroom hpage hlast

/-- **Every name once, in the order of the listing**: however the replies are cut, whatever
fails, and whatever is called between the requests. -/
theorem received_each_once (h : (machine inode).Reach (Lists inode names) s) :
    s.received = names.take s.offset ∧ (s.ended = true → s.received = names) := by
  have hread : s.UpToOffset names := by
    refine h.invariant ?_ ?_
    · rintro s ⟨a, rfl⟩
      exact ⟨rfl, fun hended => by cases hended⟩
    · intro s action s' hread hlists hstep
      cases hstep
      exact hread.step hlists
  exact ⟨hread.received, fun hended =>
    hread.received.trans (List.take_of_length_le (hread.ended hended))⟩

/-- The first page of a root with two mounts. -/
theorem first_page_of_root :
    let ns := sharedVolume (pathOf "/a") (pathOf "/b") VirtualPath.root
    let s := step 1 { adapter := fresh } (.page ns.toProvider 3)
    s.received = [ascii ".", ascii "..", ascii "a", ascii "b"].take s.offset ∧
      (s.ended = true → s.received = [ascii ".", ascii "..", ascii "a", ascii "b"]) := by
  intro ns s
  refine received_each_once (.step (.init ⟨fresh, rfl⟩) ?_ rfl)
  intro provider room heq
  cases heq
  refine ⟨by decide, fun node entries hlisted => ?_⟩
  have hnames : (fresh.listed ns.toProvider 1).toOption.map (fun found => rowNames found.2) =
      some [ascii ".", ascii "..", ascii "a", ascii "b"] := by decide +kernel
  rw [hlisted] at hnames
  exact Option.some.inj hnames

end DirectoryReader

end TuxStack.Vfs
