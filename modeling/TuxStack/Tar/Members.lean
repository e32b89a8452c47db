import Mathlib.Data.List.Dedup
import TuxStack.Tar.Chunking
import TuxStack.Tar.Tree

/-!
# Archives as lists of members

`Holds r members` says that a reader stands in front of exactly these members,
with their bodies, and the end of the archive: `next_entry` returns each of them
in turn and its body is there to be read or skipped. It covers what any tar writer makes.

On such a stream `from_stream` succeeds as soon as the members have distinct
paths below the root and the nodes they need, missing ancestors included, fit
the entry limit; the index is then what the members mean
(`fromStream_of_holds`).
-/

namespace TuxStack.Tar

open Vfs Result Chunks Tar.TarStreamReader

namespace TarStreamReader

variable {r r' : TarStreamReader} {members : List (TarEntry × Bytes)} {rest : Bytes}
  {entry : TarEntry}

variable {body bytes : Bytes}

theorem readExact_left (hclean : r.source.Clean (policy r.limits))
    (hleft : r.source.left = bytes ++ rest) :
    ∃ s, readExact bytes.length r = .ok (bytes, { r with source := s }) ∧
      s.Clean (policy r.limits) ∧ s.left = rest := by
  rcases Source.readExact_clean hclean bytes.length with ⟨-, s, hs, hclean', hrest⟩ | ⟨hlt, -⟩
  · rw [hleft] at hs hrest
    refine ⟨s, ?_, hclean', by simpa using hrest⟩
    unfold readExact onSource
    dsimp only
    rw [hs, List.take_left']
    · rfl
    · rfl
  · rw [hleft] at hlt
    simp at hlt

theorem skipExact_left (hclean : r.source.Clean (policy r.limits))
    (hleft : r.source.left = bytes ++ rest) :
    ∃ s, skipExact bytes.length r = .ok ((), { r with source := s }) ∧
      s.Clean (policy r.limits) ∧ s.left = rest := by
  rcases Source.skipExact_clean hclean bytes.length with ⟨-, s, hs, hclean', hrest⟩ | ⟨hlt, -⟩
  · rw [hleft] at hrest
    refine ⟨s, ?_, hclean', by simpa using hrest⟩
    unfold skipExact onSource
    dsimp only
    rw [hs]
    rfl
  · rw [hleft] at hlt
    simp at hlt

/-- Skipping a body and its padding. -/
theorem skipEntryBody_left_eq {pad : Bytes} (hsize : r.currentSize = some body.length)
    (hclean : r.source.Clean (policy r.limits)) (hpad : pad.length = padding body.length)
    (hleft : r.source.left = body ++ (pad ++ rest)) :
    ∃ s, skipEntryBody r = .ok ((), { r with source := s, currentSize := none }) ∧
      s.Clean (policy r.limits) ∧ s.left = rest := by
  obtain ⟨s₁, hskip₁, hclean₁, hleft₁⟩ :=
    skipExact_left (r := { r with currentSize := none }) hclean hleft
  obtain ⟨s₂, hskip₂, hclean₂, hleft₂⟩ :=
    skipExact_left (r := { r with source := s₁, currentSize := none }) hclean₁ hleft₁
  refine ⟨s₂, ?_, hclean₂, hleft₂⟩
  unfold skipEntryBody
  rw [hsize]
  rw [hpad] at hskip₂
  exact run_bind_eq_ok.mpr ⟨(), _, hskip₁, hskip₂⟩

/-- A body chunk is a non-empty piece of what the body still has. -/
theorem readBodyChunk_left (maximum : Nat) (hsize : r.currentSize = some body.length)
    (hclean : r.source.Clean (policy r.limits)) (hleft : r.source.left = body ++ rest)
    (hne : body ≠ []) : ∃ chunk more s, readBodyChunk maximum r =
        .ok (some chunk, { r with source := s, currentSize := some more.length }) ∧
      body = chunk ++ more ∧ chunk ≠ [] ∧ s.Clean (policy r.limits) ∧ s.left = more ++ rest := by
  obtain ⟨s₁, hfill, hclean₁, hleft₁, hend, -⟩ := Source.fill_clean hclean
  have hbuffer : s₁.buffer ≠ [] := by
    intro hempty
    have hnil := hend hempty
    rw [hleft₁, hleft] at hnil
    exact hne (List.append_eq_nil_iff.mp hnil).1
  let take := min (min (max maximum 1) s₁.buffer.length) body.length
  have hpos : 0 < take := by
    have h₁ := List.length_pos_of_ne_nil hbuffer
    have h₂ := List.length_pos_of_ne_nil hne
    omega
  have htake : take ≤ s₁.buffer.length := by omega
  have hbody : take ≤ body.length := by omega
  have hchunk : s₁.buffer.take take = body.take take := by
    rw [← Source.take_left htake, hleft₁, hleft, List.take_append_of_le_length hbody]
  refine ⟨body.take take, body.drop take, { s₁ with buffer := s₁.buffer.drop take }, ?_,
    (List.take_append_drop take body).symm, ?_, hclean₁.withBuffer _, ?_⟩
  · have hrun : fill r = .ok ((), { r with source := s₁ }) := by
      unfold fill onSource
      dsimp only
      rw [hfill]
      rfl
    have hnonzero : body.length ≠ 0 := fun hzero => hne (List.length_eq_zero_iff.mp hzero)
    have hfilled : s₁.buffer.isEmpty = false := by simpa using hbuffer
    unfold readBodyChunk
    rw [hsize]
    dsimp only
    rw [if_neg hnonzero, hrun]
    simp only [bind, Except.bind, hfilled, Bool.false_eq_true, if_false, List.length_drop]
    rw [← hchunk]
  · intro hnil
    have hlen := congrArg List.length hnil
    rw [List.length_take, List.length_nil] at hlen
    omega
  · rw [Source.left_drop_buffer htake, hleft₁, hleft, List.drop_append_of_le_length hbody]

theorem skipEntryBody_ok {size : Nat} (hsize : r.currentSize = some size)
    (h : skipEntryBody r = .ok ((), r')) : size + padding size ≤ r.source.left.length ∧
      r'.source.left = r.source.left.drop (size + padding size) ∧
      r' = { r with source := r'.source, currentSize := none } := by
  unfold skipEntryBody at h
  rw [hsize] at h
  obtain ⟨u, r₁, hfirst, hsecond⟩ := run_bind_eq_ok.mp h
  obtain ⟨s₁, rfl, hle₁, hleft₁⟩ := skipExact_ok hfirst
  obtain ⟨s₂, rfl, hle₂, hleft₂⟩ := skipExact_ok hsecond
  dsimp only at hle₁ hleft₁ hle₂ hleft₂
  rw [hleft₁, List.length_drop] at hle₂
  refine ⟨by omega, ?_, rfl⟩
  rw [hleft₂, hleft₁, List.drop_drop]

theorem nextEntry_currentSize (h : nextEntry r = .ok (some entry, r')) :
    r'.currentSize = some entry.size := by
  obtain ⟨-, hloop⟩ := nextEntry_some h
  obtain ⟨extensions, header, r₁, -, hfinish⟩ := nextLoop_some hloop
  obtain ⟨entry', hentry, hend⟩ := bind_eq_ok.mp hfinish
  cases hend
  rfl

/-- The reader is in front of these members, and the archive ends after them. -/
inductive Holds : TarStreamReader → List (TarEntry × Bytes) → Prop where
  | nil {r r' : TarStreamReader} (hclean : r.source.Clean (policy r.limits))
      (hnext : nextEntry r = .ok (none, r')) : Holds r []
  | cons {r r₁ r₂ : TarStreamReader} {entry : TarEntry} {body : Bytes}
      {members : List (TarEntry × Bytes)} (hclean : r.source.Clean (policy r.limits))
      (hnext : nextEntry r = .ok (some entry, r₁))
      (hbody : r₁.source.left.take entry.size = body) (hsize : body.length = entry.size)
      (hskip : skipEntryBody r₁ = .ok ((), r₂)) (hrest : Holds r₂ members) :
      Holds r ((entry, body) :: members)

theorem Holds.clean (h : Holds r members) : r.source.Clean (policy r.limits) := by
  cases h with
  | nil hclean _ => exact hclean
  | cons hclean _ _ _ _ _ => exact hclean

theorem Sim.transfer {α : Type} {x : ReaderM α} (hx : Sim SameLeft x x) {r₁ : TarStreamReader}
    (h : SameLeft r r') {a : α} (hr : x r = .ok (a, r₁)) :
    ∃ r₁', x r' = .ok (a, r₁') ∧ SameLeft r₁ r₁' := by
  have hagree := hx r r' h
  rw [hr] at hagree
  cases hr' : x r' with
  | error e =>
    rw [hr'] at hagree
    exact absurd hagree (by simp [Agree])
  | ok b =>
    rw [hr'] at hagree
    obtain ⟨rfl, hsame⟩ := hagree
    exact ⟨b.2, rfl, hsame⟩

theorem nextEntry_clean (hclean : r.source.Clean (policy r.limits))
    (h : nextEntry r = .ok (some entry, r')) : r'.source.Clean (policy r'.limits) := by
  obtain ⟨r₁, hagain, hsame⟩ := Sim.transfer sim_nextEntry ⟨hclean, hclean, rfl, rfl⟩ h
  rw [h] at hagain
  cases hagain
  exact hsame.clean

theorem Holds.sameLeft (h : Holds r members) :
    ∀ {r' : TarStreamReader}, SameLeft r r' → Holds r' members := by
  induction h with
  | nil hclean hnext =>
    intro r' hsame
    obtain ⟨r₁', hnext', -⟩ := Sim.transfer sim_nextEntry hsame hnext
    exact .nil (by rw [hsame.limits]; exact hsame.clean') hnext'
  | cons hclean hnext hbody hsize hskip _ ih =>
    intro r' hsame
    obtain ⟨r₁', hnext', hsame₁⟩ := Sim.transfer sim_nextEntry hsame hnext
    obtain ⟨r₂', hskip', hsame₂⟩ := Sim.transfer sim_skipEntryBody hsame₁ hskip
    refine .cons (by rw [hsame.limits]; exact hsame.clean') hnext' ?_ hsize hskip' (ih hsame₂)
    rw [← hsame₁.left]
    exact hbody

theorem Holds.length_le (h : Holds r members) : members.length ≤ r.source.left.length := by
  induction h with
  | nil _ _ => simp
  | cons _ hnext _ _ hskip _ ih =>
    have hlt := nextEntry_left hnext
    have hle := skipEntryBody_left hskip
    simp only [List.length_cons]
    omega

theorem Holds.size (h : Holds r members) : ∀ m ∈ members, m.2.length = m.1.size := by
  induction h with
  | nil _ _ => simp
  | cons _ _ _ hsize _ _ ih =>
    intro m hm
    rcases List.mem_cons.mp hm with rfl | hm
    · exact hsize
    · exact ih m hm

theorem Holds.proper (h : Holds r members) :
    ∀ m ∈ members, m.1.path.Valid ∧ m.1.synthetic = false := by
  induction h with
  | nil _ _ => simp
  | cons _ hnext _ _ _ _ ih =>
    intro m hm
    rcases List.mem_cons.mp hm with rfl | hm
    · exact nextEntry_valid hnext
    · exact ih m hm

/-! ## Indexing what a reader holds -/

/-- What `from_stream` indexes: the entries, less those that name the root. -/
def indexed (members : List (TarEntry × Bytes)) : List TarEntry :=
  (members.map Prod.fst).filter fun m => !m.path.isRoot

theorem mem_indexed :
    entry ∈ indexed members ↔ entry.path.isRoot = false ∧ ∃ body, (entry, body) ∈ members := by
  rw [indexed, List.mem_filter, and_comm]
  simp

theorem indexed_eq (hroots : ∀ m ∈ members, m.1.path.isRoot = false) :
    indexed members = members.map Prod.fst := by
  refine List.filter_eq_self.mpr ?_
  intro entry hentry
  obtain ⟨m, hm, rfl⟩ := List.mem_map.mp hentry
  simp [hroots m hm]

/-- `from_stream` inserts the members one after another. -/
theorem fromLoop_of_holds {maxEntries : Nat} (h : Holds r members) :
    ∀ {rounds : Nat} {index : TarIndex}, members.length < rounds →
      (TarIndex.fromLoop maxEntries rounds index r).map Prod.fst =
        (indexed members).foldlM (fun index entry => index.insertWithParents entry maxEntries)
          index := by
  induction h with
  | nil _ hnext =>
    intro rounds index hlt
    cases rounds with
    | zero => exact absurd hlt (Nat.not_lt_zero _)
    | succ rounds =>
      unfold TarIndex.fromLoop
      rw [run_bind_of_ok hnext]
      rfl
  | @cons r r₁ r₂ entry body members _ hnext _ _ hskip _ ih =>
    intro rounds index hlt
    cases rounds with
    | zero => exact absurd hlt (Nat.not_lt_zero _)
    | succ rounds =>
      have hlt' : members.length < rounds := by simpa using hlt
      unfold TarIndex.fromLoop
      rw [run_bind_of_ok hnext]
      dsimp only
      rw [run_bind_of_ok hskip]
      by_cases hroot : entry.path.isRoot = true
      · have hindexed : indexed ((entry, body) :: members) = indexed members := by
          simp [indexed, hroot]
        rw [if_pos hroot, hindexed]
        exact ih hlt'
      · have hindexed : indexed ((entry, body) :: members) = entry :: indexed members := by
          simp [indexed, hroot]
        rw [if_neg hroot, hindexed, List.foldlM_cons]
        cases hinsert : index.insertWithParents entry maxEntries with
        | error e => rfl
        | ok mid => exact ih hlt'

end TarStreamReader

/-! ## Room for the members -/

/-- The paths below the root that an index of these members has: the members and
everything above them. -/
def nodesOf (members : List TarEntry) : List TarPath :=
  ((members.flatMap fun m => m.path :: m.path.ancestors).filter fun p => !p.isRoot).dedup

variable {members : List TarEntry}

theorem mem_nodesOf {p : TarPath} : p ∈ nodesOf members ↔
      p.isRoot = false ∧ ∃ m ∈ members, p = m.path ∨ p ∈ m.path.ancestors := by
  rw [nodesOf, List.mem_dedup, List.mem_filter, and_comm]
  simp

namespace TarIndex

/-- Every key of the index is the root or one of `nodes`. -/
def Within (nodes : List TarPath) (index : TarIndex) : Prop :=
  ∀ p, (index.get p).isSome = true → p.isRoot = true ∨ p ∈ nodes

variable {nodes : List TarPath} {index : TarIndex} {maxEntries : Nat}

theorem ensureCapacity_of_within (hwithin : index.Within nodes) {p : TarPath} (hp : p ∈ nodes)
    (hnone : index.get p = none) (hroom : nodes.length ≤ maxEntries) :
    index.ensureCapacity maxEntries = .ok () := by
  have hsub : index.entries.keys ⊆ TarPath.root :: nodes.erase p := by
    intro k hk
    have hsome : (index.get k).isSome = true := by
      rw [get, ← Std.TreeMap.contains_eq_isSome_getElem?]
      exact Std.TreeMap.mem_keys.mp hk
    rcases hwithin k hsome with hroot | hmem
    · exact List.mem_cons.mpr (.inl (TarPath.ext (List.isEmpty_iff.mp hroot)))
    · refine List.mem_cons.mpr (.inr ((List.mem_erase_of_ne ?_).mpr hmem))
      rintro rfl
      rw [hnone] at hsome
      cases hsome
  have hlen := (List.subperm_of_subset Std.TreeMap.nodup_keys hsub).length_le
  rw [Std.TreeMap.length_keys, List.length_cons, List.length_erase_of_mem hp] at hlen
  have hpos := List.length_pos_of_mem hp
  unfold ensureCapacity len
  rw [if_neg (by omega)]

theorem Within.put (h : index.Within nodes) {entry : TarEntry} (hpath : entry.path ∈ nodes) :
    (index.put entry).Within nodes := by
  intro p hp
  rw [get_put] at hp
  split at hp
  · rename_i heq
    exact .inr (heq ▸ hpath)
  · exact h p hp

theorem putParents_exists (hroom : nodes.length ≤ maxEntries) :
    ∀ {paths : List TarPath} {index : TarIndex},
    paths.Nodup → (∀ p ∈ paths, p ∈ nodes ∧ index.get p = none) → index.Within nodes →
      ∃ index', paths.foldlM (putParent maxEntries) index = .ok index' ∧ index'.Within nodes ∧
        ∀ p old, index'.get p = some old → index.get p = some old ∨ old.synthetic = true
  | [], index, _, _, hwithin => ⟨index, rfl, hwithin, fun _ _ h => .inl h⟩
  | path :: paths, index, hnodup, hpaths, hwithin => by
      obtain ⟨hfresh, hnodup⟩ := List.nodup_cons.mp hnodup
      obtain ⟨hmem, hnone⟩ := hpaths path (by simp)
      have hcap := ensureCapacity_of_within hwithin hmem hnone hroom
      have hstep : putParent maxEntries index path =
          .ok (index.put (TarEntry.syntheticDirectory path)) :=
        bind_eq_ok.mpr ⟨(), hcap, rfl⟩
      have hrest : ∀ p ∈ paths, p ∈ nodes ∧
          (index.put (TarEntry.syntheticDirectory path)).get p = none := by
        intro p hp
        obtain ⟨hin, hget⟩ := hpaths p (by simp [hp])
        refine ⟨hin, ?_⟩
        have hne : p ≠ (TarEntry.syntheticDirectory path).path := by
          rintro rfl
          exact hfresh hp
        rw [get_put, if_neg hne]
        exact hget
      have hput : (index.put (TarEntry.syntheticDirectory path)).Within nodes :=
        Within.put hwithin hmem
      obtain ⟨index', hfold, hwithin', hold⟩ := putParents_exists hroom hnodup hrest hput
      refine ⟨index', by rw [List.foldlM_cons, hstep]; exact hfold, hwithin', ?_⟩
      intro p old hget
      rcases hold p old hget with hget | hsyn
      · rw [get_put] at hget
        split at hget
        · cases hget
          exact .inr rfl
        · exact .inl hget
      · exact .inr hsyn

theorem nodup_ancestors (p : TarPath) : p.ancestors.Nodup := by
  refine (TarPath.ancestors_pairwise p).imp ?_
  rintro a b hab rfl
  exact TarPath.not_mem_ancestors_self _ hab

/-- **When an insertion succeeds**: the path is free or held by a synthetic
directory, and there is room for it and its ancestors. -/
theorem insertWithParents_exists {entry : TarEntry} (hroom : nodes.length ≤ maxEntries)
    (hwithin : index.Within nodes) (hroot : (index.get TarPath.root).isSome = true)
    (hreal : entry.synthetic = false) (hpath : entry.path ∈ nodes)
    (hancestors : ∀ a ∈ entry.path.ancestors, a.isRoot = false → a ∈ nodes)
    (hfree : ∀ old, index.get entry.path = some old → old.synthetic = true) :
    ∃ index', index.insertWithParents entry maxEntries = .ok index' := by
  let missing := (entry.path.ancestors.takeWhile fun path => (index.get path).isNone).reverse
  have hmissing : ∀ p ∈ missing, p ∈ nodes ∧ index.get p = none := by
    intro p hp
    have hp' := List.mem_reverse.mp hp
    have hnone : index.get p = none := by simpa using List.mem_takeWhile_imp hp'
    refine ⟨hancestors p (List.takeWhile_subset _ hp') ?_, hnone⟩
    by_contra hisRoot
    have heq : p = TarPath.root :=
      TarPath.ext (List.isEmpty_iff.mp (show p.isRoot = true by simpa using hisRoot))
    rw [← heq, hnone] at hroot
    cases hroot
  have hnodup : missing.Nodup :=
    List.nodup_reverse.mpr ((nodup_ancestors entry.path).sublist (List.takeWhile_sublist _))
  obtain ⟨mid, hmid, hwithinMid, holdMid⟩ := putParents_exists hroom hnodup hmissing hwithin
  cases hold : mid.get entry.path with
  | some old =>
    have hsyn : old.synthetic = true := by
      rcases holdMid _ old hold with hget | hsyn
      · exact hfree old hget
      · exact hsyn
    refine ⟨mid.put entry, bind_eq_ok.mpr ⟨mid, hmid, ?_⟩⟩
    simp [hold, hsyn, hreal]
  | none =>
    have hcap := ensureCapacity_of_within hwithinMid hpath hold hroom
    refine ⟨mid.put entry, bind_eq_ok.mpr ⟨mid, hmid, ?_⟩⟩
    simp only [hold]
    exact bind_eq_ok.mpr ⟨(), hcap, rfl⟩

end TarIndex

/-- Members with distinct paths and room for all their nodes can be inserted. -/
theorem fold_exists {nodes : List TarPath} {maxEntries : Nat} (hroom : nodes.length ≤ maxEntries)
    (hproper : ∀ m ∈ members, Proper m) (hnodup : (members.map TarEntry.path).Nodup)
    (hnodes : ∀ p ∈ nodesOf members, p ∈ nodes) :
    ∃ index, members.foldlM (fun index entry => index.insertWithParents entry maxEntries)
      TarIndex.empty = .ok index := by
  induction members using List.reverseRecOn with
  | nil => exact ⟨_, rfl⟩
  | append_singleton members entry ih =>
    have hproper' : ∀ m ∈ members, Proper m := fun m hm => hproper m (by simp [hm])
    rw [List.map_append, List.nodup_append_comm] at hnodup
    obtain ⟨hfresh, hnodup'⟩ := List.nodup_cons.mp hnodup
    have hnodes' : ∀ p ∈ nodesOf members, p ∈ nodes := by
      intro p hp
      obtain ⟨hroot, m, hm, hat⟩ := mem_nodesOf.mp hp
      exact hnodes p (mem_nodesOf.mpr ⟨hroot, m, by simp [hm], hat⟩)
    obtain ⟨index, hindex⟩ := ih hproper' hnodup' hnodes'
    obtain ⟨hget, -, -⟩ := get_of_fold hproper' hindex
    have hentry := hproper entry (by simp)
    have hwithin : index.Within nodes := by
      intro p hp
      by_cases hroot : p.isRoot = true
      · exact .inl hroot
      · have hroot' : p.isRoot = false := by simpa using hroot
        rw [hget] at hp
        obtain ⟨m, hm, hat⟩ := (archiveGet_isSome_iff hroot').mp hp
        refine .inr (hnodes' p (mem_nodesOf.mpr ⟨hroot', m, hm, ?_⟩))
        rcases hat with rfl | hat
        · exact .inl rfl
        · exact .inr hat
    have hfree : ∀ old, index.get entry.path = some old → old.synthetic = true := by
      intro old hold
      rw [hget] at hold
      have hnone : members.find? (fun m => m.path = entry.path) = none := by
        rw [List.find?_eq_none]
        intro m hm hpath
        exact hfresh (List.mem_map.mpr ⟨m, hm, by simpa using hpath⟩)
      simp only [archiveGet, hentry.belowRoot, hnone, Bool.false_eq_true, if_false] at hold
      split at hold
      · cases hold
        rfl
      · cases hold
    obtain ⟨index', hinsert⟩ := TarIndex.insertWithParents_exists hroom hwithin
      (by rw [hget]; rfl) hentry.real
      (hnodes _ (mem_nodesOf.mpr ⟨hentry.belowRoot, entry, by simp, .inl rfl⟩))
      (fun a ha hroot => hnodes a (mem_nodesOf.mpr ⟨hroot, entry, by simp, .inr ha⟩)) hfree
    refine ⟨index', ?_⟩
    rw [List.foldlM_append, hindex]
    exact bind_eq_ok.mpr ⟨index, rfl, bind_eq_ok.mpr ⟨index', hinsert, rfl⟩⟩

theorem length_le_of_fold {maxEntries : Nat} {index : TarIndex} (hproper : ∀ m ∈ members, Proper m)
    (h : members.foldlM (fun index entry => index.insertWithParents entry maxEntries)
      TarIndex.empty = .ok index) : members.length ≤ maxEntries := by
  obtain ⟨hget, hlen, hnodup⟩ := get_of_fold hproper h
  have hfresh : TarPath.root ∉ members.map TarEntry.path := by
    intro hmem
    obtain ⟨m, hm, hroot⟩ := List.mem_map.mp hmem
    have hbelow := (hproper m hm).belowRoot
    rw [hroot] at hbelow
    cases hbelow
  have hsub : TarPath.root :: members.map TarEntry.path ⊆ index.entries.keys := by
    intro t ht
    rw [Std.TreeMap.mem_keys, Std.TreeMap.mem_iff_isSome_getElem?]
    show (index.get t).isSome = true
    rw [hget]
    rcases List.mem_cons.mp ht with rfl | ht
    · rfl
    · obtain ⟨m, hm, rfl⟩ := List.mem_map.mp ht
      rw [archiveGet_of_mem hproper hnodup hm]
      rfl
  have hle := (List.subperm_of_subset (List.nodup_cons.mpr ⟨hfresh, hnodup⟩) hsub).length_le
  rw [List.length_cons, List.length_map, Std.TreeMap.length_keys] at hle
  unfold TarIndex.len at hlen
  omega

variable {limits : TarLimits} {stream : ArchiveByteStream}

theorem fromStream_eq {members : List (TarEntry × Bytes)} (hlimits : limits.validate = .ok ())
    (h : (TarStreamReader.new stream limits).Holds members) : TarIndex.fromStream stream limits =
      (indexed members).foldlM
        (fun index entry => index.insertWithParents entry limits.maxEntries) TarIndex.empty := by
  unfold TarIndex.fromStream
  rw [hlimits]
  exact fromLoop_of_holds h (Nat.lt_succ_of_le h.length_le)

theorem TarStreamReader.Holds.indexed_proper {r : TarStreamReader}
    {members : List (TarEntry × Bytes)} (h : r.Holds members) :
    ∀ m ∈ indexed members, Proper m := by
  intro m hm
  obtain ⟨hroot, body, hmem⟩ := mem_indexed.mp hm
  obtain ⟨hvalid, hreal⟩ := h.proper (m, body) hmem
  exact ⟨hvalid, hroot, hreal⟩

/-- **Indexing a well-formed stream.** Members with distinct paths and room for
their nodes are accepted, and the index is what they mean. -/
theorem fromStream_of_holds {members : List (TarEntry × Bytes)} (hlimits : limits.validate = .ok ())
    (h : (TarStreamReader.new stream limits).Holds members)
    (hnodup : ((indexed members).map TarEntry.path).Nodup)
    (hroom : (nodesOf (indexed members)).length ≤ limits.maxEntries) :
    ∃ index, TarIndex.fromStream stream limits = .ok index ∧
      ∀ p, index.get p = archiveGet (indexed members) p := by
  obtain ⟨index, hfold⟩ := fold_exists hroom h.indexed_proper hnodup fun _ hp => hp
  refine ⟨index, ?_, (get_of_fold h.indexed_proper hfold).1⟩
  rw [fromStream_eq hlimits h, hfold]

end TuxStack.Tar
