import Mathlib.Data.List.Nodup
import TuxStack.Tar.Extensions
import TuxStack.Tar.Index

/-!
# The index as a tree

`archiveMembers` is the archive as `from_stream` sees it, and `archiveGet` says
what a list of members means: the members themselves, a synthetic directory for
every other ancestor of a member, and the root. An index built without error is
exactly that (`get_of_fold`), in whatever order the members came.

So every parent is present. Whether parents are directories, and whether every
node is listed on the way down from the root, depends on the members
(`index_tree_iff`): `insert_with_parents` never looks at the kind of an ancestor.
-/

namespace TuxStack.Tar

open Vfs Result Chunks Tar.TarStreamReader

/-! ## Ancestors -/

namespace TarPath

variable {p q : TarPath}

theorem mem_ancestors : q ∈ p.ancestors ↔ q.components <+: p.components ∧ q.depth < p.depth := by
  unfold ancestors
  simp only [List.mem_map, List.mem_reverse, List.mem_range]
  constructor
  · rintro ⟨k, hk, rfl⟩
    refine ⟨List.take_prefix _ _, ?_⟩
    simp only [depth, List.length_take] at hk ⊢
    omega
  · rintro ⟨hpre, hlt⟩
    exact ⟨q.depth, hlt, TarPath.ext (List.prefix_iff_eq_take.mp hpre).symm⟩

theorem isDescendantOf_iff :
    p.isDescendantOf q = true ↔ q.components <+: p.components ∧ q.depth < p.depth := by
  simp [isDescendantOf, startsWith, List.isPrefixOf_iff_prefix, and_comm]

theorem mem_ancestors_iff : q ∈ p.ancestors ↔ p.isDescendantOf q = true := by
  rw [mem_ancestors, isDescendantOf_iff]

theorem ancestors_trans {r : TarPath} (hpq : q ∈ p.ancestors) (hqr : r ∈ q.ancestors) :
    r ∈ p.ancestors := by
  rw [mem_ancestors] at *
  exact ⟨hqr.1.trans hpq.1, hqr.2.trans hpq.2⟩

/-- Ancestors come nearest first, so a property that goes up with them holds of a
tail of the list. -/
theorem ancestors_pairwise (p : TarPath) : p.ancestors.Pairwise fun a b => b ∈ a.ancestors := by
  rw [ancestors, List.pairwise_map, List.pairwise_reverse]
  refine List.pairwise_lt_range.imp_of_mem ?_
  intro k l hk hl hlt
  rw [mem_ancestors]
  have hl' := List.mem_range.mp hl
  refine ⟨List.take_prefix_take_left hlt.le, ?_⟩
  simp only [depth, List.length_take] at hl' ⊢
  omega

theorem parent_eq_some : p.parent = some q ↔ ∃ name, p.components = q.components ++ [name] := by
  unfold parent isRoot
  constructor
  · intro h
    split at h
    · cases h
    · rename_i hne
      cases h
      have hne' : p.components ≠ [] := by simpa using hne
      exact ⟨p.components.getLast hne', (List.dropLast_append_getLast hne').symm⟩
  · rintro ⟨name, h⟩
    rw [if_neg (by simp [h])]
    exact congrArg some (TarPath.ext (by simp [h]))

theorem parent_mem_ancestors (h : p.parent = some q) : q ∈ p.ancestors := by
  obtain ⟨name, h⟩ := parent_eq_some.mp h
  rw [mem_ancestors]
  exact ⟨⟨[name], h.symm⟩, by simp [depth, h]⟩

theorem mem_ancestors_parent {a : TarPath} (h : p.parent = some q) (ha : a ∈ p.ancestors) :
    a = q ∨ a ∈ q.ancestors := by
  obtain ⟨name, h⟩ := parent_eq_some.mp h
  rw [mem_ancestors, h] at ha
  obtain ⟨hpre, hlt⟩ := ha
  rcases List.prefix_concat_iff.mp hpre with heq | hpre
  · simp [depth, heq, h] at hlt
  · by_cases hdepth : a.depth < q.depth
    · exact .inr (mem_ancestors.mpr ⟨hpre, hdepth⟩)
    · left
      refine TarPath.ext (hpre.eq_of_length ?_)
      have := hpre.length_le
      unfold depth at hdepth
      omega

theorem not_mem_ancestors_self (p : TarPath) : p ∉ p.ancestors := by
  rw [mem_ancestors]
  exact fun h => Nat.lt_irrefl _ h.2

end TarPath

/-! ## Insertion -/

namespace TarIndex

theorem get_put (index : TarIndex) (entry : TarEntry) (p : TarPath) :
    (index.put entry).get p = if p = entry.path then some entry else index.get p := by
  unfold get put
  rw [Std.TreeMap.getElem?_insert]
  by_cases h : p = entry.path
  · simp [h]
  · have hne : compare entry.path p ≠ .eq := fun heq =>
      h (Std.LawfulEqOrd.eq_of_compare heq).symm
    rw [if_neg hne, if_neg h]

theorem get_removeDescendants (index : TarIndex) (root p : TarPath) :
    (index.removeDescendants root).get p = if root ∈ p.ancestors then none else index.get p := by
  unfold get removeDescendants
  rw [Std.TreeMap.getElem?_filter']
  by_cases h : root ∈ p.ancestors
  · have hdesc := TarPath.mem_ancestors_iff.mp h
    rw [if_pos h, Option.filter_eq_none_iff]
    intro e _
    simp [hdesc]
  · have hdesc : p.isDescendantOf root = false :=
      Bool.eq_false_iff.mpr fun hdesc => h (TarPath.mem_ancestors_iff.mpr hdesc)
    rw [if_neg h]
    cases index.entries[p]? with
    | none => rfl
    | some e => simp [Option.filter, hdesc]

theorem len_put_le (index : TarIndex) (entry : TarEntry) :
    (index.put entry).len ≤ index.len + 1 := Std.TreeMap.size_insert_le

variable {maxEntries : Nat} {entry : TarEntry} {index' : TarIndex}

theorem len_put_of_get {index : TarIndex} (h : (index.get entry.path).isSome = true) :
    (index.put entry).len = index.len := by
  unfold len put
  rw [Std.TreeMap.size_insert, Std.TreeMap.contains_eq_isSome_getElem?]
  exact if_pos h

theorem ensureCapacity_ok {index : TarIndex} {u : Unit}
    (h : index.ensureCapacity maxEntries = .ok u) : index.len ≤ maxEntries := by
  unfold ensureCapacity at h
  split at h
  · cases h
  · omega

theorem get_putParents : ∀ {paths : List TarPath} {index index' : TarIndex},
    paths.foldlM (putParent maxEntries) index = .ok index' → ∀ p, index'.get p =
      if p ∈ paths then some (TarEntry.syntheticDirectory p) else index.get p
  | [], index, index', h, p => by
      cases h
      simp
  | path :: paths, index, index', h, p => by
      rw [List.foldlM_cons] at h
      obtain ⟨mid, hmid, hrest⟩ := bind_eq_ok.mp h
      obtain ⟨u, -, hput⟩ := bind_eq_ok.mp hmid
      cases hput
      rw [get_putParents hrest, get_put]
      by_cases hp : p = path
      · subst hp
        by_cases hmem : p ∈ paths <;> simp [hmem, TarEntry.syntheticDirectory]
      · by_cases hmem : p ∈ paths <;> simp [hmem, hp, TarEntry.syntheticDirectory]

theorem len_putParents : ∀ {paths : List TarPath} {index index' : TarIndex},
    paths.foldlM (putParent maxEntries) index = .ok index' → index.len ≤ maxEntries + 1 →
      index'.len ≤ maxEntries + 1
  | [], index, index', h, hlen => by
      cases h
      exact hlen
  | path :: paths, index, index', h, _ => by
      rw [List.foldlM_cons] at h
      obtain ⟨mid, hmid, hrest⟩ := bind_eq_ok.mp h
      obtain ⟨u, hcap, hput⟩ := bind_eq_ok.mp hmid
      cases hput
      have hcap' := ensureCapacity_ok hcap
      exact len_putParents hrest ((len_put_le index _).trans (by omega))

/-- **What an insertion writes**, into any index: the entry, and synthetic directories for
its ancestors up to the first that is there. -/
theorem get_insertWithParents {index : TarIndex}
    (h : index.insertWithParents entry maxEntries = .ok index') (p : TarPath) : index'.get p =
      if p = entry.path then some entry
      else if p ∈ entry.path.ancestors.takeWhile fun path => (index.get path).isNone then
        some (TarEntry.syntheticDirectory p)
      else index.get p := by
  obtain ⟨mid, hmid, hrest⟩ := bind_eq_ok.mp h
  have hput : index' = mid.put entry := by
    split at hrest
    · split at hrest
      · cases hrest
        rfl
      · cases hrest
    · obtain ⟨u, -, hend⟩ := bind_eq_ok.mp hrest
      cases hend
      rfl
  rw [hput, get_put, get_putParents hmid]
  simp only [List.mem_reverse]

theorem takeWhile_eq_filter {α : Type*} {P : α → Bool} : ∀ {l : List α},
    l.Pairwise (fun a b => P b = true → P a = true) → l.takeWhile P = l.filter P
  | [], _ => rfl
  | a :: l, h => by
      obtain ⟨hhead, htail⟩ := List.pairwise_cons.mp h
      by_cases ha : P a = true
      · rw [List.takeWhile_cons_of_pos ha, List.filter_cons_of_pos ha, takeWhile_eq_filter htail]
      · rw [List.takeWhile_cons_of_neg ha, List.filter_cons_of_neg ha, eq_comm,
          List.filter_eq_nil_iff]
        exact fun b hb hPb => ha (hhead b hb hPb)

/-- The ancestors of present paths are present. -/
def Closed (index : TarIndex) : Prop :=
  ∀ p, (index.get p).isSome = true → ∀ q ∈ p.ancestors, (index.get q).isSome = true

/-- **What a successful insertion does**: the entry is at its path, where there
was nothing or a synthetic directory, its missing ancestors are synthetic
directories, and everything else is as before. -/
theorem insertWithParents_ok {index : TarIndex} (hclosed : Closed index)
    (hlen : index.len ≤ maxEntries + 1) (hreal : entry.synthetic = false)
    (h : index.insertWithParents entry maxEntries = .ok index') : index'.len ≤ maxEntries + 1 ∧
      (∀ old, index.get entry.path = some old → old.synthetic = true) ∧
      ∀ p, index'.get p =
        if p = entry.path then some entry
        else if p ∈ entry.path.ancestors ∧ index.get p = none then
          some (TarEntry.syntheticDirectory p)
        else index.get p := by
  have hwritten := get_insertWithParents h
  obtain ⟨mid, hmid, hrest⟩ := bind_eq_ok.mp h
  have hlenMid := len_putParents hmid hlen
  -- a closed index misses a final run of the ancestors, so `takeWhile` finds them all
  have hmissing : ∀ p, p ∈ (entry.path.ancestors.takeWhile fun path =>
      (index.get path).isNone) ↔ p ∈ entry.path.ancestors ∧ index.get p = none := by
    intro p
    rw [takeWhile_eq_filter, List.mem_filter, Option.isNone_iff_eq_none]
    refine (TarPath.ancestors_pairwise entry.path).imp ?_
    intro a b hab hb
    cases ha : index.get a with
    | none => rfl
    | some x =>
      have hsome := hclosed a (by simp [ha]) b hab
      simp [Option.isNone_iff_eq_none.mp hb] at hsome
  have hself : mid.get entry.path = index.get entry.path := by
    rw [get_putParents hmid, if_neg]
    rw [List.mem_reverse, hmissing]
    exact fun hmem => TarPath.not_mem_ancestors_self _ hmem.1
  have hget : ∀ p, index'.get p =
      if p = entry.path then some entry
      else if p ∈ entry.path.ancestors ∧ index.get p = none then
        some (TarEntry.syntheticDirectory p)
      else index.get p := by
    intro p
    rw [hwritten]
    simp only [hmissing]
  rw [hself] at hrest
  cases hold : index.get entry.path with
  | some old =>
    rw [hold] at hrest
    dsimp only at hrest
    split at hrest
    · rename_i hsyn
      cases hrest
      refine ⟨?_, ?_, hget⟩
      · rwa [len_put_of_get (by rw [hself, hold]; rfl)]
      · rintro old' ⟨⟩
        simpa [hreal] using hsyn
    · cases hrest
  | none =>
    rw [hold] at hrest
    obtain ⟨u, hcap, hput⟩ := bind_eq_ok.mp hrest
    cases hput
    have hcap' := ensureCapacity_ok hcap
    exact ⟨(len_put_le mid entry).trans (by omega), fun old' h' => (by cases h'), hget⟩

end TarIndex

/-! ## What the members of an archive mean -/

/-- The node at a path, given the members below the root in archive order. -/
def archiveGet (members : List TarEntry) (p : TarPath) : Option TarEntry :=
  if p.isRoot then some TarEntry.root
  else
    match members.find? fun m => m.path = p with
    | some member => some member
    | none =>
      if members.any fun m => m.path.isDescendantOf p then
        some (TarEntry.syntheticDirectory p)
      else none

/-- Members as the reader returns them, the root left out. -/
structure Proper (entry : TarEntry) : Prop where
  valid : entry.path.Valid
  belowRoot : entry.path.isRoot = false
  real : entry.synthetic = false

variable {p q : TarPath} {e entry m : TarEntry} {r r' : TarStreamReader} {limits : TarLimits}
  {maxEntries : Nat} {stream : ArchiveByteStream}

theorem archiveGet_member {members : List TarEntry} (hroot : p.isRoot = false)
    (h : members.find? (fun m => m.path = p) = some m) : archiveGet members p = some m := by
  simp [archiveGet, hroot, h]

theorem archiveGet_isSome_iff {members : List TarEntry} (hroot : p.isRoot = false) :
    (archiveGet members p).isSome = true ↔
      ∃ m ∈ members, m.path = p ∨ p ∈ m.path.ancestors := by
  simp only [archiveGet, hroot, Bool.false_eq_true, if_false]
  constructor
  · intro h
    split at h
    · rename_i m hfind
      exact ⟨m, List.mem_of_find?_eq_some hfind,
        .inl (by simpa using List.find?_some hfind)⟩
    · split at h
      · rename_i hany
        obtain ⟨m, hm, hdesc⟩ := List.any_eq_true.mp hany
        exact ⟨m, hm, .inr (TarPath.mem_ancestors_iff.mpr hdesc)⟩
      · cases h
  · rintro ⟨m, hm, hpath | hanc⟩
    · split
      · rfl
      · rename_i hnone
        exact absurd (by simpa using hpath) (List.find?_eq_none.mp hnone m hm)
    · split
      · rfl
      · rw [if_pos (List.any_eq_true.mpr ⟨m, hm, TarPath.mem_ancestors_iff.mp hanc⟩)]
        rfl

theorem archiveGet_path {members : List TarEntry} (h : archiveGet members p = some e) :
    e.path = p := by
  unfold archiveGet at h
  split at h
  · rename_i hroot
    cases h
    exact TarPath.ext (List.isEmpty_iff.mp hroot).symm
  · split at h
    · rename_i hfind
      cases h
      simpa using List.find?_some hfind
    · split at h
      · cases h
        rfl
      · cases h

theorem archiveGet_closed {members : List TarEntry} (h : (archiveGet members p).isSome = true)
    (hq : q ∈ p.ancestors) : (archiveGet members q).isSome = true := by
  by_cases hqroot : q.isRoot = true
  · simp [archiveGet, hqroot]
  · have hp : p.isRoot = false := by
      have hlt := (TarPath.mem_ancestors.mp hq).2
      cases hcs : p.components with
      | nil => simp [TarPath.depth, hcs] at hlt
      | cons c cs => simp [TarPath.isRoot, hcs]
    obtain ⟨m, hm, hat⟩ := (archiveGet_isSome_iff hp).mp h
    refine (archiveGet_isSome_iff (by simpa using hqroot)).mpr ⟨m, hm, .inr ?_⟩
    rcases hat with rfl | habove
    · exact hq
    · exact TarPath.ancestors_trans habove hq

theorem isRoot_of_mem_ancestors (h : q ∈ p.ancestors) : p.isRoot = false := by
  have hlt := (TarPath.mem_ancestors.mp h).2
  cases hcs : p.components with
  | nil => simp [TarPath.depth, hcs] at hlt
  | cons c cs => simp [TarPath.isRoot, hcs]

/-- One more member: it is at its path, its new ancestors are synthetic. -/
theorem archiveGet_concat {members : List TarEntry} (hroot : entry.path.isRoot = false)
    (hnew : members.find? (fun m => m.path = entry.path) = none) (p : TarPath) :
    archiveGet (members ++ [entry]) p =
      if p = entry.path then some entry
      else if p ∈ entry.path.ancestors ∧ archiveGet members p = none then
        some (TarEntry.syntheticDirectory p)
      else archiveGet members p := by
  by_cases hp : p = entry.path
  · subst hp
    rw [if_pos rfl, archiveGet_member hroot]
    rw [List.find?_append, hnew]
    simp
  · rw [if_neg hp]
    by_cases hproot : p.isRoot = true
    · simp [archiveGet, hproot]
    · have hfind : (members ++ [entry]).find? (fun m => m.path = p) =
          members.find? fun m => m.path = p := by
        rw [List.find?_append]
        simp [Ne.symm hp]
      simp only [archiveGet, hproot, hfind, List.any_append, List.any_cons, List.any_nil,
        Bool.or_false, Bool.false_eq_true, if_false]
      cases members.find? fun m => m.path = p with
      | some m => simp
      | none =>
        by_cases hany : (members.any fun m => m.path.isDescendantOf p) = true
        · simp [hany]
        · by_cases hdesc : entry.path.isDescendantOf p = true
          · simp [hany, hdesc, TarPath.mem_ancestors_iff]
          · simp [hany, hdesc, TarPath.mem_ancestors_iff]

/-- **The index is its members.** Inserting members one after another, without
error, gives exactly what the list of members means; no path occurs twice. -/
theorem get_of_fold {members : List TarEntry} {index : TarIndex} (hproper : ∀ m ∈ members, Proper m)
    (h : members.foldlM (fun index entry => index.insertWithParents entry maxEntries)
      TarIndex.empty = .ok index) :
    (∀ p, index.get p = archiveGet members p) ∧ index.len ≤ maxEntries + 1 ∧
      (members.map TarEntry.path).Nodup := by
  induction members using List.reverseRecOn generalizing index with
  | nil =>
    cases h
    refine ⟨fun p => ?_, ?_, List.nodup_nil⟩
    · change ((TarIndex.mk ∅).put TarEntry.root).get p = _
      rw [TarIndex.get_put]
      by_cases hp : p.isRoot = true
      · have heq : p = TarEntry.root.path := TarPath.ext (List.isEmpty_iff.mp hp)
        rw [if_pos heq, archiveGet, if_pos hp]
      · have hne : p ≠ TarEntry.root.path := by
          rintro rfl
          exact hp rfl
        simp [archiveGet, hp, hne, TarIndex.get]
    · change ((TarIndex.mk ∅).put TarEntry.root).len ≤ _
      refine (TarIndex.len_put_le _ _).trans ?_
      simp [TarIndex.len]
  | append_singleton members entry ih =>
    rw [List.foldlM_append] at h
    obtain ⟨before, hbefore, hlast⟩ := bind_eq_ok.mp h
    obtain ⟨hget, hlen, hnodup⟩ := ih (fun m hm => hproper m (by simp [hm])) hbefore
    have hentry := hproper entry (by simp)
    have hinsert : before.insertWithParents entry maxEntries = .ok index := by
      obtain ⟨after, hafter, hend⟩ := bind_eq_ok.mp hlast
      cases hend
      exact hafter
    have hclosed : TarIndex.Closed before := by
      intro p hp q hq
      rw [hget] at hp ⊢
      exact archiveGet_closed hp hq
    obtain ⟨hlen', hsyn, hget'⟩ :=
      TarIndex.insertWithParents_ok hclosed hlen hentry.real hinsert
    -- an old entry at the path would be synthetic, and no member is
    have hnew : members.find? (fun m => m.path = entry.path) = none := by
      cases hfind : members.find? fun m => m.path = entry.path with
      | none => rfl
      | some m =>
        have hm := hsyn m (by rw [hget, archiveGet_member hentry.belowRoot hfind])
        rw [(hproper m (by simp [List.mem_of_find?_eq_some hfind])).real] at hm
        cases hm
    refine ⟨fun p => ?_, hlen', ?_⟩
    · rw [hget', archiveGet_concat hentry.belowRoot hnew]
      simp only [hget]
    · rw [List.map_append, List.map_singleton, List.nodup_append_comm]
      refine List.nodup_cons.mpr ⟨?_, hnodup⟩
      change entry.path ∉ members.map TarEntry.path
      rw [List.mem_map]
      rintro ⟨m, hm, hpath⟩
      exact absurd (by simpa using hpath) (List.find?_eq_none.mp hnew m hm)

/-! ## The members of a stream -/

/-- The loop of `from_stream` without its index. -/
def membersLoop : Nat → ReaderM (List TarEntry)
  | 0 => pure []
  | rounds + 1 => do
      match ← nextEntry with
      | none => return []
      | some entry => do
          skipEntryBody
          let rest ← membersLoop rounds
          return if entry.path.isRoot then rest else entry :: rest

/-- The members of an archive, less those that name the root. -/
def archiveMembers (stream : ArchiveByteStream) (limits : TarLimits) :
    Except VfsError (List TarEntry) :=
  let reader := TarStreamReader.new stream limits
  (membersLoop (reader.source.left.length + 1) reader).map Prod.fst

/-- What the reader has checked about an entry. -/
structure Accepted (limits : TarLimits) (entry : TarEntry) : Prop where
  valid : entry.path.Valid
  real : entry.synthetic = false
  fits : entry.path.encodedLen ≤ limits.maxPathBytes
  hardlink : entry.kind = .hardlink → ∃ target path,
    entry.linkTarget = some target ∧ TarPath.fromTarBytes target limits = .ok path

theorem memberEntry_ok {header : RawHeader} {pax : PaxValues} {longName longLink : Option Bytes}
    (h : memberEntry limits header pax longName longLink = .ok entry) : Accepted limits entry := by
  obtain ⟨-, -, h⟩ := bind_eq_ok.mp h
  obtain ⟨u, hlink, h⟩ := bind_eq_ok.mp h
  dsimp only at h
  split at h
  · cases h
  · obtain ⟨path, hpath, h⟩ := bind_eq_ok.mp h
    obtain ⟨mode, -, h⟩ := bind_eq_ok.mp h
    obtain ⟨uid, -, h⟩ := bind_eq_ok.mp h
    obtain ⟨gid, -, h⟩ := bind_eq_ok.mp h
    obtain ⟨deviceMajor, -, h⟩ := bind_eq_ok.mp h
    obtain ⟨deviceMinor, -, h⟩ := bind_eq_ok.mp h
    cases h
    refine ⟨TarPath.valid_fromTarBytes hpath, rfl, TarPath.fits_fromTarBytes hpath,
      fun hkind => ?_⟩
    change header.kind = .hardlink at hkind
    unfold validateHardlink at hlink
    rw [if_neg (not_not_intro hkind)] at hlink
    dsimp only at hlink ⊢
    cases htarget : pax.linkPath <|> longLink <|> header.linkTarget with
    | none =>
      rw [htarget] at hlink
      cases hlink
    | some target =>
      rw [htarget] at hlink
      obtain ⟨linked, hlinked, -⟩ := bind_eq_ok.mp hlink
      exact ⟨target, linked, rfl, hlinked⟩

theorem nextEntry_accepted (h : nextEntry r = .ok (some entry, r')) :
    Accepted r.limits entry ∧ r'.limits = r.limits := by
  obtain ⟨-, hloop⟩ := nextEntry_some h
  obtain ⟨extensions, header, r₁, hheaders, hfinish⟩ := nextLoop_some hloop
  obtain ⟨s, rfl⟩ := readHeaders_ok hheaders
  rw [foldl_record] at hfinish
  obtain ⟨entry', hentry, hend⟩ := bind_eq_ok.mp hfinish
  cases hend
  exact ⟨memberEntry_ok hentry, rfl⟩

theorem nextEntry_valid (h : nextEntry r = .ok (some entry, r')) :
    entry.path.Valid ∧ entry.synthetic = false :=
  ⟨(nextEntry_accepted h).1.valid, (nextEntry_accepted h).1.real⟩

theorem skipEntryBody_limits {u : Unit} (h : skipEntryBody r = .ok (u, r')) :
    r'.limits = r.limits := by
  unfold skipEntryBody at h
  split at h
  · cases h
  · obtain ⟨u₁, r₁, hfirst, hsecond⟩ := run_bind_eq_ok.mp h
    obtain ⟨s₁, rfl, -⟩ := skipExact_ok hfirst
    obtain ⟨s₂, rfl, -⟩ := skipExact_ok hsecond
    rfl

theorem membersLoop_accepted : ∀ {rounds : Nat} {r r' : TarStreamReader}
    {members : List TarEntry}, membersLoop rounds r = .ok (members, r') →
      ∀ m ∈ members, Accepted r.limits m ∧ m.path.isRoot = false
  | 0, _, _, _, h => by
      cases h
      simp
  | rounds + 1, r, r', members, h => by
      obtain ⟨out, r₁, hnext, hrest⟩ := run_bind_eq_ok.mp h
      cases out with
      | none =>
        cases hrest
        simp
      | some entry =>
        obtain ⟨u, r₂, hskip, hrest⟩ := run_bind_eq_ok.mp hrest
        obtain ⟨rest, r₃, hloop, hend⟩ := run_bind_eq_ok.mp hrest
        cases hend
        obtain ⟨haccepted, hlimits⟩ := nextEntry_accepted hnext
        have hrestAccepted := membersLoop_accepted hloop
        rw [skipEntryBody_limits hskip, hlimits] at hrestAccepted
        intro m hm
        split at hm
        · exact hrestAccepted m hm
        · rename_i hroot
          rcases List.mem_cons.mp hm with rfl | hm
          · exact ⟨haccepted, by simpa using hroot⟩
          · exact hrestAccepted m hm

theorem membersLoop_proper {rounds : Nat} {members : List TarEntry}
    (h : membersLoop rounds r = .ok (members, r')) : ∀ m ∈ members, Proper m := fun m hm =>
  let ⟨haccepted, hroot⟩ := membersLoop_accepted h m hm
  ⟨haccepted.valid, hroot, haccepted.real⟩

/-- The members of a stream have passed the checks of its reader. -/
theorem archiveMembers_accepted {members : List TarEntry}
    (h : archiveMembers stream limits = .ok members) : ∀ m ∈ members, Accepted limits m := by
  unfold archiveMembers at h
  dsimp only at h
  cases hloop : membersLoop ((TarStreamReader.new stream limits).source.left.length + 1)
      (TarStreamReader.new stream limits) with
  | error e =>
    rw [hloop] at h
    cases h
  | ok out =>
    rw [hloop] at h
    cases h
    exact fun m hm => (membersLoop_accepted hloop m hm).1

/-- The loop of `from_stream` inserts the members in order. -/
theorem fromLoop_ok : ∀ {rounds : Nat} {index index' : TarIndex}
    {r r' : TarStreamReader}, TarIndex.fromLoop maxEntries rounds index r = .ok (index', r') →
      ∃ members, membersLoop rounds r = .ok (members, r') ∧
        members.foldlM (fun index entry => index.insertWithParents entry maxEntries) index =
          .ok index'
  | 0, index, index', r, r', h => by
      cases h
      exact ⟨[], rfl, rfl⟩
  | rounds + 1, index, index', r, r', h => by
      obtain ⟨out, r₁, hnext, hrest⟩ := run_bind_eq_ok.mp h
      cases out with
      | none =>
        cases hrest
        exact ⟨[], run_bind_eq_ok.mpr ⟨none, _, hnext, rfl⟩, rfl⟩
      | some entry =>
        obtain ⟨u, r₂, hskip, hafter⟩ := run_bind_eq_ok.mp hrest
        have hloop : ∀ rest, membersLoop rounds r₂ = .ok (rest, r') →
            membersLoop (rounds + 1) r =
              .ok (if entry.path.isRoot then rest else entry :: rest, r') := by
          intro rest hmembers
          refine run_bind_eq_ok.mpr ⟨some entry, r₁, hnext, ?_⟩
          refine run_bind_eq_ok.mpr ⟨u, r₂, hskip, ?_⟩
          exact run_bind_eq_ok.mpr ⟨rest, r', hmembers, rfl⟩
        by_cases hroot : entry.path.isRoot = true
        · rw [if_pos hroot] at hafter
          obtain ⟨members, hmembers, hfold⟩ := fromLoop_ok hafter
          exact ⟨members, by simpa [hroot] using hloop members hmembers, hfold⟩
        · rw [if_neg hroot] at hafter
          obtain ⟨mid, r₃, hinsert, hfrom⟩ := run_bind_eq_ok.mp hafter
          obtain ⟨hinsert', rfl⟩ := lift_ok hinsert
          obtain ⟨members, hmembers, hfold⟩ := fromLoop_ok hfrom
          refine ⟨entry :: members, by simpa [hroot] using hloop members hmembers, ?_⟩
          rw [List.foldlM_cons, hinsert']
          exact hfold

theorem fromStream_ok {index : TarIndex} (h : TarIndex.fromStream stream limits = .ok index) :
    ∃ members, archiveMembers stream limits = .ok members ∧ (∀ m ∈ members, Proper m) ∧
      members.foldlM (fun index entry => index.insertWithParents entry limits.maxEntries)
        TarIndex.empty = .ok index := by
  obtain ⟨u, -, hrest⟩ := bind_eq_ok.mp h
  dsimp only at hrest
  unfold archiveMembers
  dsimp only
  cases hloop : TarIndex.fromLoop limits.maxEntries
      ((TarStreamReader.new stream limits).source.left.length + 1) TarIndex.empty
      (TarStreamReader.new stream limits) with
  | error e =>
    rw [hloop] at hrest
    cases hrest
  | ok x =>
    rw [hloop] at hrest
    cases hrest
    obtain ⟨members, hmembers, hfold⟩ := fromLoop_ok hloop
    exact ⟨members, by rw [hmembers]; rfl, membersLoop_proper hmembers, hfold⟩

/-! ## Tree shape -/

/-- The paths that listings starting at the root lead to. -/
inductive Listed (index : TarIndex) (identityPrefix : Bytes) (generation : Nat) :
    TarPath → Prop where
  | root : Listed index identityPrefix generation TarPath.root
  | child {parent : VirtualPath} {entries : List VirtualDirectoryEntry}
      {entry : VirtualDirectoryEntry}
      (hparent : Listed index identityPrefix generation (TarPath.fromVirtual parent))
      (hentries : index.directoryEntries parent identityPrefix generation = .ok entries)
      (hentry : entry ∈ entries) :
      Listed index identityPrefix generation
        ⟨(TarPath.fromVirtual parent).components ++ [entry.name.bytes]⟩

/-- The index is a tree of directories, with every node listed. -/
structure IsTree (maxEntries : Nat) (index : TarIndex) (identityPrefix : Bytes)
    (generation : Nat) : Prop where
  root : ∃ e, index.get TarPath.root = some e ∧ e.kind = .directory
  keyed : ∀ p e, index.get p = some e → e.path = p
  bounded : index.len ≤ maxEntries + 1
  parents : ∀ p e parent, index.get p = some e → p.parent = some parent →
    ∃ d, index.get parent = some d ∧ d.kind = .directory
  listed : ∀ p e, index.get p = some e → Listed index identityPrefix generation p

/-- Members that make a tree: nothing lies below a member that is no directory,
hardlinks resolve, and the directories of members have paths short enough for
the virtual filesystem. -/
structure WellPlaced (members : List TarEntry) : Prop where
  belowDirectories : ∀ m ∈ members, m.kind ≠ .directory →
    ∀ m' ∈ members, m'.path.isDescendantOf m.path = false
  hardlinks : ∀ m ∈ members, m.kind = .hardlink →
    ∃ target, TarIndex.resolveLoop (archiveGet members) 40 [] m.path = .ok target
  nameable : ∀ m ∈ members, ∀ parent, m.path.parent = some parent →
    parent.encodedLen ≤ defaultMaxPathBytes

theorem find_member {members : List TarEntry} (hnodup : (members.map TarEntry.path).Nodup)
    (hm : m ∈ members) : members.find? (fun x => x.path = m.path) = some m := by
  cases hfind : members.find? fun x => x.path = m.path with
  | none => exact absurd (by simp) (List.find?_eq_none.mp hfind m hm)
  | some x =>
    have hpath : x.path = m.path := by simpa using List.find?_some hfind
    rw [List.inj_on_of_nodup_map hnodup (List.mem_of_find?_eq_some hfind) hm hpath]

theorem archiveGet_of_mem {members : List TarEntry} (hproper : ∀ m ∈ members, Proper m)
    (hnodup : (members.map TarEntry.path).Nodup) (hm : m ∈ members) :
    archiveGet members m.path = some m :=
  archiveGet_member (hproper m hm).belowRoot (find_member hnodup hm)

theorem archiveGet_cases {members : List TarEntry} (h : archiveGet members p = some e) :
    e.kind = .directory ∨ e ∈ members := by
  unfold archiveGet at h
  split at h
  · cases h
    exact .inl rfl
  · split at h
    · rename_i hfind
      cases h
      exact .inr (List.mem_of_find?_eq_some hfind)
    · split at h
      · cases h
        exact .inl rfl
      · cases h

theorem encodedLen_fromVirtual (v : VirtualPath) :
    (TarPath.fromVirtual v).encodedLen = pathByteLen v.components := by
  by_cases h : v.components = []
  · simp [TarPath.encodedLen, TarPath.isRoot, TarPath.fromVirtual, pathByteLen, h]
  · rw [pathByteLen_of_ne_nil h]
    simp [TarPath.encodedLen, TarPath.isRoot, TarPath.fromVirtual, texts, h, Function.comp_def]

theorem exists_names : ∀ {cs : List Bytes}, (∀ c ∈ cs, ∃ name, VirtualFileName.new c = .ok name) →
    ∃ names, texts names = cs
  | [], _ => ⟨[], rfl⟩
  | c :: cs, h => by
      obtain ⟨name, hname⟩ := h c (by simp)
      obtain ⟨names, hnames⟩ := exists_names fun x hx => h x (List.mem_cons_of_mem c hx)
      exact ⟨name :: names, by simp [texts, VirtualFileName.bytes_of_new hname, ← hnames]⟩

/-- A path made of file names and short enough is a path of the virtual
filesystem. -/
theorem exists_virtual (hvalid : p.Valid) (hlen : p.encodedLen ≤ defaultMaxPathBytes) :
    ∃ v, TarPath.fromVirtual v = p := by
  obtain ⟨names, hnames⟩ := exists_names hvalid
  have hbound : pathByteLen names ≤ defaultMaxPathBytes := by
    have hp : p = ⟨texts names⟩ := TarPath.ext hnames.symm
    rw [hp] at hlen
    by_cases h : names = []
    · simp [h, pathByteLen, defaultMaxPathBytes]
    · rw [pathByteLen_of_ne_nil h]
      simpa [TarPath.encodedLen, TarPath.isRoot, texts, h, Function.comp_def] using hlen
  exact ⟨⟨names, hbound⟩, TarPath.ext hnames⟩

theorem encodedLen_le_of_prefix {bound : Nat} (hbound : 1 ≤ bound)
    (h : p.components <+: q.components) (hq : q.encodedLen ≤ bound) : p.encodedLen ≤ bound := by
  have hsum := (h.sublist.map fun c => c.length + 1).sum_le_sum (by simp)
  unfold TarPath.encodedLen TarPath.isRoot at *
  by_cases hp : p.components = []
  · simpa [hp] using hbound
  · have hne : q.components ≠ [] := fun hnil => hp (List.prefix_nil.mp (hnil ▸ h))
    simp only [List.isEmpty_iff, hp, hne, if_false] at hq ⊢
    exact hsum.trans hq

section Tree

variable {members : List TarEntry} {index : TarIndex} {identityPrefix : Bytes}
  {generation : Nat}

variable {e : TarEntry} {p parent : TarPath}

theorem mem_children (hkeyed : ∀ p e, index.get p = some e → e.path = p) :
    e ∈ index.children p ↔ index.get e.path = some e ∧ e.path.parent = some p := by
  have hmem : e ∈ index.entries.toList.map Prod.snd ↔ index.get e.path = some e := by
    rw [List.mem_map]
    constructor
    · rintro ⟨⟨k, v⟩, hkv, rfl⟩
      have hk : index.get k = some v := Std.TreeMap.mem_toList_iff_getElem?_eq_some.mp hkv
      rwa [hkeyed k v hk]
    · intro he
      exact ⟨(e.path, e), Std.TreeMap.mem_toList_iff_getElem?_eq_some.mpr he, rfl⟩
  unfold TarIndex.children
  rw [List.mem_filter, hmem]
  simp only [Bool.and_eq_true, decide_eq_true_eq, and_congr_right_iff]
  refine fun _ => ⟨fun h => h.2, fun h => ⟨?_, h⟩⟩
  obtain ⟨name, hname⟩ := TarPath.parent_eq_some.mp h
  simp [TarPath.depth, hname]

section

variable (hget : ∀ p, index.get p = archiveGet members p)
include hget

theorem exists_member_below (he : index.get p = some e) (hparent : p.parent = some parent) :
    ∃ m ∈ members, parent ∈ m.path.ancestors := by
  have habove := TarPath.parent_mem_ancestors hparent
  obtain ⟨m, hm, hat⟩ := (archiveGet_isSome_iff (isRoot_of_mem_ancestors habove)).mp
    (by simp [← hget, he] : (archiveGet members p).isSome = true)
  rcases hat with rfl | hup
  · exact ⟨m, hm, habove⟩
  · exact ⟨m, hm, TarPath.ancestors_trans hup habove⟩

theorem parents_of_wellPlaced (hplaced : WellPlaced members) (he : index.get p = some e)
    (hparent : p.parent = some parent) :
    ∃ d, index.get parent = some d ∧ d.kind = .directory := by
  obtain ⟨m, hm, hdesc⟩ := exists_member_below hget he hparent
  rw [hget] at he
  have hsome : (archiveGet members parent).isSome = true :=
    archiveGet_closed (by simp [he]) (TarPath.parent_mem_ancestors hparent)
  obtain ⟨d, hd⟩ := Option.isSome_iff_exists.mp hsome
  refine ⟨d, by rw [hget, hd], ?_⟩
  rcases archiveGet_cases hd with hdir | hmem
  · exact hdir
  · by_contra hkind
    rw [← archiveGet_path hd, TarPath.mem_ancestors_iff,
      hplaced.belowDirectories d hmem hkind m hm] at hdesc
    cases hdesc

theorem metadata_ok (hplaced : WellPlaced members) (he : index.get p = some e) :
    ∃ m, index.metadata p identityPrefix generation = .ok m := by
  unfold TarIndex.metadata
  rw [he]
  dsimp only
  split
  · exact ⟨_, rfl⟩
  · rename_i hkind
    have hhard : e.kind = .hardlink := by simpa using hkind
    rw [hget] at he
    rcases archiveGet_cases he with hdir | hmem
    · rw [hdir] at hhard
      cases hhard
    · obtain ⟨target, htarget⟩ := hplaced.hardlinks e hmem hhard
      have hindex : index.get = archiveGet members := funext hget
      rw [TarIndex.resolveHardlink, hindex, ← archiveGet_path he, htarget]
      exact ⟨_, rfl⟩

theorem keyed_of_get (p : TarPath) (e : TarEntry) (he : index.get p = some e) : e.path = p := by
  rw [hget] at he
  exact archiveGet_path he

theorem valid_of_get (hproper : ∀ m ∈ members, Proper m) (he : index.get p = some e) :
    p.Valid := by
  by_cases hroot : p.isRoot = true
  · intro c hc
    rw [List.isEmpty_iff.mp hroot] at hc
    cases hc
  · rw [hget] at he
    obtain ⟨m, hm, hat⟩ := (archiveGet_isSome_iff (by simpa using hroot)).mp
      (by simp [he] : (archiveGet members p).isSome = true)
    rcases hat with rfl | hup
    · exact (hproper m hm).valid
    · exact fun c hc => (hproper m hm).valid c ((TarPath.mem_ancestors.mp hup).1.subset hc)

/-- The directory of a present node has a path of the virtual filesystem. -/
theorem nameable_parent (hplaced : WellPlaced members) (he : index.get p = some e)
    (hparent : p.parent = some parent) :
    parent.encodedLen ≤ defaultMaxPathBytes := by
  obtain ⟨m, hm, hdesc⟩ := exists_member_below hget he hparent
  obtain ⟨up, hup⟩ : ∃ up, m.path.parent = some up := by
    refine ⟨_, if_neg ?_⟩
    simp [isRoot_of_mem_ancestors hdesc]
  have hlen := hplaced.nameable m hm up hup
  rcases TarPath.mem_ancestors_parent hup hdesc with rfl | hlt
  · exact hlen
  · exact encodedLen_le_of_prefix (by decide) (TarPath.mem_ancestors.mp hlt).1 hlen

/-- **One level down**: a present node is in the listing of its directory. -/
theorem listed_child (hproper : ∀ m ∈ members, Proper m) (hplaced : WellPlaced members)
    (he : index.get p = some e) (hparent : p.parent = some parent)
    (hlisted : Listed index identityPrefix generation parent) :
    Listed index identityPrefix generation p := by
  obtain ⟨d, hd, hdir⟩ := parents_of_wellPlaced hget hplaced he hparent
  obtain ⟨v, rfl⟩ := exists_virtual (valid_of_get hget hproper hd)
    (nameable_parent hget hplaced he hparent)
  have hkeyed := keyed_of_get hget
  have hrows : ∀ x ∈ index.children (TarPath.fromVirtual v), ∃ row,
      index.directoryEntry identityPrefix generation x = .ok row := by
    intro x hx
    obtain ⟨hxget, hxparent⟩ := (mem_children hkeyed).mp hx
    obtain ⟨raw, hraw⟩ := TarPath.parent_eq_some.mp hxparent
    obtain ⟨name, hname⟩ := valid_of_get hget hproper hxget raw (by simp [hraw])
    obtain ⟨m, hm⟩ : ∃ m, index.metadata x.path identityPrefix generation = .ok m :=
      metadata_ok hget hplaced hxget
    refine ⟨⟨name, m⟩, ?_⟩
    have hlast : x.path.name = some raw := by simp [TarPath.name, hraw]
    unfold TarIndex.directoryEntry
    rw [hlast]
    exact bind_eq_ok.mpr ⟨name, hname, bind_eq_ok.mpr ⟨m, hm, rfl⟩⟩
  obtain ⟨rows, hentries⟩ := exists_mapM_ok hrows
  have hdirectory : index.directoryEntries v identityPrefix generation = .ok rows := by
    simp [TarIndex.directoryEntries, hd, hdir, hentries]
  have hpath := hkeyed p e he
  obtain ⟨row, hrow, hrowOf⟩ := mem_of_mapM_ok hentries
    ((mem_children hkeyed).mpr ⟨by rw [hpath, he], by rw [hpath, hparent]⟩)
  obtain ⟨raw, hraw⟩ := TarPath.parent_eq_some.mp hparent
  have hname : row.name.bytes = raw := by
    have hlast : e.path.name = some raw := by simp [TarPath.name, hpath, hraw]
    unfold TarIndex.directoryEntry at hrowOf
    rw [hlast] at hrowOf
    obtain ⟨name, hnew, hrest⟩ := bind_eq_ok.mp hrowOf
    obtain ⟨m, -, hend⟩ := bind_eq_ok.mp hrest
    cases hend
    exact VirtualFileName.bytes_of_new hnew
  have hp : p = ⟨(TarPath.fromVirtual v).components ++ [row.name.bytes]⟩ :=
    TarPath.ext (by rw [hraw, hname])
  rw [hp]
  exact .child hlisted hdirectory hrow

theorem listed_of_wellPlaced (hproper : ∀ m ∈ members, Proper m) (hplaced : WellPlaced members) :
    ∀ (cs : List Bytes) (e : TarEntry), index.get ⟨cs⟩ = some e →
      Listed index identityPrefix generation ⟨cs⟩ := by
  intro cs
  induction cs using List.reverseRecOn with
  | nil => exact fun _ _ => .root
  | append_singleton cs c ih =>
    intro e he
    have hparent : (⟨cs ++ [c]⟩ : TarPath).parent = some ⟨cs⟩ :=
      TarPath.parent_eq_some.mpr ⟨c, rfl⟩
    obtain ⟨d, hd, -⟩ := parents_of_wellPlaced hget hplaced he hparent
    exact listed_child hget hproper hplaced he hparent (ih d hd)

end

theorem listed_parent (h : Listed index identityPrefix generation p) (hroot : p.isRoot = false) :
    ∃ (v : VirtualPath) (rows : List VirtualDirectoryEntry),
      p.parent = some (TarPath.fromVirtual v) ∧
        index.directoryEntries v identityPrefix generation = .ok rows := by
  cases h with
  | root => cases hroot
  | child hparent hentries hentry =>
    exact ⟨_, _, TarPath.parent_eq_some.mpr ⟨_, rfl⟩, hentries⟩

theorem metadata_of_listing (hkeyed : ∀ p e, index.get p = some e → e.path = p) {v : VirtualPath}
    {rows : List VirtualDirectoryEntry}
    (hrows : index.directoryEntries v identityPrefix generation = .ok rows)
    (he : index.get e.path = some e) (hparent : e.path.parent = some (TarPath.fromVirtual v)) :
    ∃ m, index.metadata e.path identityPrefix generation = .ok m := by
  unfold TarIndex.directoryEntries at hrows
  dsimp only at hrows
  split at hrows
  · cases hrows
  · split at hrows
    · cases hrows
    · obtain ⟨row, -, hrow⟩ := mem_of_mapM_ok hrows ((mem_children hkeyed).mpr ⟨he, hparent⟩)
      unfold TarIndex.directoryEntry at hrow
      split at hrow
      · cases hrow
      · obtain ⟨name, -, hrest⟩ := bind_eq_ok.mp hrow
        obtain ⟨m, hm, -⟩ := bind_eq_ok.mp hrest
        exact ⟨m, hm⟩

theorem wellPlaced_of_isTree {maxEntries : Nat} (hproper : ∀ m ∈ members, Proper m)
    (hnodup : (members.map TarEntry.path).Nodup)
    (hget : ∀ p, index.get p = archiveGet members p)
    (htree : IsTree maxEntries index identityPrefix generation) : WellPlaced members := by
  have hmember : ∀ m ∈ members, index.get m.path = some m := fun m hm => by
    rw [hget, archiveGet_of_mem hproper hnodup hm]
  refine ⟨fun m hm hkind m' hm' => ?_, fun m hm hhard => ?_, fun m hm parent hparent => ?_⟩
  · -- the child of `m` on the way to `m'` would have `m` as its directory
    by_contra hdesc
    have hdesc' : m.path ∈ m'.path.ancestors := by
      rw [TarPath.mem_ancestors_iff]
      simpa using hdesc
    obtain ⟨⟨rest, hrest⟩, hlt⟩ := TarPath.mem_ancestors.mp hdesc'
    cases rest with
    | nil =>
      simp only [List.append_nil] at hrest
      simp [TarPath.depth, hrest] at hlt
    | cons c rest =>
      have hchild : (⟨m.path.components ++ [c]⟩ : TarPath).parent = some m.path :=
        TarPath.parent_eq_some.mpr ⟨c, rfl⟩
      have hpresent : (index.get ⟨m.path.components ++ [c]⟩).isSome = true := by
        rw [hget]
        refine (archiveGet_isSome_iff ?_).mpr ⟨m', hm', ?_⟩
        · simp [TarPath.isRoot]
        · cases rest with
          | nil => exact .inl (TarPath.ext hrest.symm)
          | cons c' rest =>
            right
            rw [TarPath.mem_ancestors]
            refine ⟨⟨c' :: rest, by rw [← hrest]; simp⟩, ?_⟩
            simp only [TarPath.depth, ← hrest, List.length_append, List.length_cons,
              List.length_nil]
            omega
      obtain ⟨e, he⟩ := Option.isSome_iff_exists.mp hpresent
      obtain ⟨d, hd, hdir⟩ := htree.parents _ _ _ he hchild
      rw [hmember m hm] at hd
      cases hd
      exact hkind hdir
  · obtain ⟨v, rows, hparent, hrows⟩ := listed_parent (htree.listed _ _ (hmember m hm))
      (hproper m hm).belowRoot
    obtain ⟨attributes, hattributes⟩ := metadata_of_listing htree.keyed hrows (hmember m hm) hparent
    unfold TarIndex.metadata at hattributes
    rw [hmember m hm] at hattributes
    dsimp only at hattributes
    rw [if_neg (by simp [hhard])] at hattributes
    obtain ⟨target, htarget, -⟩ := bind_eq_ok.mp hattributes
    have hindex : index.get = archiveGet members := funext hget
    rw [TarIndex.resolveHardlink, hindex] at htarget
    exact ⟨target, htarget⟩
  · obtain ⟨v, rows, hparent', -⟩ := listed_parent (htree.listed _ _ (hmember m hm))
      (hproper m hm).belowRoot
    rw [hparent] at hparent'
    cases hparent'
    rw [encodedLen_fromVirtual]
    exact v.bounded

end Tree

/-- **Which archives give a tree.** For every stream and limits on which
`from_stream` succeeds: the index is a tree of directories that listings reach
from the root exactly when the members of the archive are well placed. -/
theorem index_tree_iff {stream : ArchiveByteStream} {limits : TarLimits} {index : TarIndex}
    (h : TarIndex.fromStream stream limits = .ok index) (identityPrefix : Bytes)
    (generation : Nat) :
    ∃ members, archiveMembers stream limits = .ok members ∧
      (IsTree limits.maxEntries index identityPrefix generation ↔ WellPlaced members) := by
  obtain ⟨members, hmembers, hproper, hfold⟩ := fromStream_ok h
  obtain ⟨hget, hlen, hnodup⟩ := get_of_fold hproper hfold
  refine ⟨members, hmembers, wellPlaced_of_isTree hproper hnodup hget, fun hplaced => ?_⟩
  exact
    { root := ⟨TarEntry.root, by rw [hget]; rfl, rfl⟩
      keyed := keyed_of_get hget
      bounded := hlen
      parents := fun p e parent he hparent => parents_of_wellPlaced hget hplaced he hparent
      listed := fun p e he => listed_of_wellPlaced hget hproper hplaced p.components e he }

def fileWithChild : Bytes := archive [member (ascii "a") 48 [], member (ascii "a/b") 48 []]

/-- `from_stream` accepts a file below a file. -/
theorem file_as_parent_is_indexed :
    ∃ index, TarIndex.fromStream [.ok fileWithChild] TarLimits.standard = .ok index ∧
      ¬ IsTree TarLimits.standard.maxEntries index [] 0 := by
  have hkinds : ((TarIndex.fromStream [.ok fileWithChild] TarLimits.standard).map fun index =>
      ((index.get ⟨[ascii "a"]⟩).map TarEntry.kind,
        (index.get ⟨[ascii "a", ascii "b"]⟩).isSome)) = .ok (some .regularFile, true) := by
    decide +kernel
  cases hindex : TarIndex.fromStream [.ok fileWithChild] TarLimits.standard with
  | error e =>
    rw [hindex] at hkinds
    cases hkinds
  | ok index =>
    refine ⟨index, rfl, fun htree => ?_⟩
    rw [hindex] at hkinds
    simp only [Except.map, Except.ok.injEq, Prod.mk.injEq] at hkinds
    obtain ⟨e, he⟩ := Option.isSome_iff_exists.mp hkinds.2
    obtain ⟨d, hd, hdir⟩ := htree.parents _ e ⟨[ascii "a"]⟩ he rfl
    rw [hd, Option.map_some, hdir] at hkinds
    cases hkinds.1

/-- A file `a/b` before its directory `a`. -/
def childBeforeParent : Bytes := archive [member (ascii "a/b") 48 [], member (ascii "a") 53 []]

def childAndParent : List TarEntry :=
  [(ascii "a/b", ⟨[ascii "a", ascii "b"]⟩, .regularFile),
    (ascii "a", ⟨[ascii "a"]⟩, .directory)].map
    fun m =>
      { TarEntry.syntheticDirectory m.2.1 with
        rawPath := m.1
        kind := m.2.2
        mode := 0o644
        uid := 12
        gid := 34
        mtime := 7
        synthetic := false }

/-- The iff at an archive whose directory comes late. -/
theorem late_directory_gives_tree :
    ∃ index, TarIndex.fromStream [.ok childBeforeParent] TarLimits.standard = .ok index ∧
      IsTree TarLimits.standard.maxEntries index [] 0 := by
  have hok : (TarIndex.fromStream [.ok childBeforeParent] TarLimits.standard).toBool = true := by
    decide +kernel
  cases hindex : TarIndex.fromStream [.ok childBeforeParent] TarLimits.standard with
  | error e =>
    rw [hindex] at hok
    cases hok
  | ok index =>
    obtain ⟨members, hmembers, hiff⟩ := index_tree_iff hindex [] 0
    have hlist : archiveMembers [.ok childBeforeParent] TarLimits.standard =
        .ok childAndParent := by
      decide +kernel
    rw [hlist] at hmembers
    cases hmembers
    have hnone : ∀ m ∈ childAndParent, m.kind ≠ .hardlink := by decide
    have hshort : ∀ m ∈ childAndParent, ∀ parent ∈ m.path.parent,
        parent.encodedLen ≤ defaultMaxPathBytes := by decide
    exact ⟨index, rfl, hiff.mpr ⟨by decide, fun m hm hhard => absurd hhard (hnone m hm),
      fun m hm parent hparent => hshort m hm parent hparent⟩⟩

end TuxStack.Tar
