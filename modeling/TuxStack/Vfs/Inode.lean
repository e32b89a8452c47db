import Mathlib.Data.Finset.Basic
import TuxStack.Lib.Runs
import TuxStack.Vfs.Path

/-!
# The inode table

`crates/tuxstack-vfs/src/inode.rs`. Three maps and a counter: `byKey` from
node keys, `byHardlink` from provider identities, `byInode` to the records.
The Rust hash maps are never iterated or measured here, so they are partial
functions; a record's alias set is a `Finset`.

Every `&mut self` method returns its `Result` together with the table it leaves
behind, also when the result is an error.

`Coherent` is the agreement of the maps with the records. All five operations
keep it with one exception: `delete` on an inode that is already deleted drops
the hardlink entry of whoever carries the key now
(`coherent_along_iff_noStaleDelete`).
-/

namespace TuxStack.Vfs

open Runs

/-! ## Keys and records -/

structure VirtualNodeKey where
  daemonIdentity : String
  resourceKind : String
  resourceId : String
  providerKey : String
  logicalPath : VirtualPath
  generation : Nat
deriving DecidableEq

def VirtualNodeKey.root : VirtualNodeKey where
  daemonIdentity := ""
  resourceKind := "root"
  resourceId := ""
  providerKey := "namespace"
  logicalPath := VirtualPath.root
  generation := 0

structure HardlinkKey where
  daemonIdentity : String
  resourceKind : String
  resourceId : String
  providerKey : String
  providerNodeId : Bytes
  generation : Nat
deriving DecidableEq

structure InodeRecord where
  inode : Nat
  canonicalKey : VirtualNodeKey
  hardlinkKey : Option HardlinkKey
  aliases : Finset VirtualNodeKey
  deleted : Bool
  lookupCount : Nat
deriving DecidableEq

def rootInode : Nat := 1

/-- `u64::saturating_add`. -/
def saturatingAdd (a b : Nat) : Nat := min (a + b) u64Max

structure InodeTable where
  byKey : VirtualNodeKey → Option Nat
  byHardlink : HardlinkKey → Option Nat
  byInode : Nat → Option InodeRecord
  nextInode : Nat

namespace InodeTable

/-! ## The operations -/

def new : InodeTable where
  byKey := Function.update (fun _ => none) VirtualNodeKey.root (some rootInode)
  byHardlink := fun _ => none
  byInode := Function.update (fun _ => none) rootInode (some
    { inode := rootInode
      canonicalKey := VirtualNodeKey.root
      hardlinkKey := none
      aliases := {VirtualNodeKey.root}
      deleted := false
      lookupCount := 1 })
  nextInode := rootInode + 1

/-- The tail of `inode_for`: a fresh number and a fresh record, or an error
with the table untouched when `checked_add` overflows. -/
def allocate (t : InodeTable) (key : VirtualNodeKey) (hardlinkKey : Option HardlinkKey) :
    Except VfsError Nat × InodeTable :=
  if t.nextInode + 1 ≤ u64Max then
    let inode := t.nextInode
    (.ok inode,
      { byKey := Function.update t.byKey key (some inode)
        byHardlink :=
          match hardlinkKey with
          | some h => Function.update t.byHardlink h (some inode)
          | none => t.byHardlink
        byInode := Function.update t.byInode inode (some
          { inode := inode
            canonicalKey := key
            hardlinkKey := hardlinkKey
            aliases := {key}
            deleted := false
            lookupCount := 1 })
        nextInode := t.nextInode + 1 })
  else (.error (.unavailable "inode number space exhausted"), t)

/-- `InodeTable::inode_for`: by key, else by provider identity, else fresh. -/
def inodeFor (t : InodeTable) (key : VirtualNodeKey) (hardlinkKey : Option HardlinkKey) :
    Except VfsError Nat × InodeTable :=
  match t.byKey key with
  | some inode =>
    match t.byInode inode with
    | some record =>
      if record.deleted then (.error .notFound, t)
      else
        (.ok inode,
          { t with byInode := Function.update t.byInode inode (some
              { record with lookupCount := saturatingAdd record.lookupCount 1 }) })
    | none => (.ok inode, t)
  | none =>
    match hardlinkKey.bind t.byHardlink with
    | some inode =>
      match t.byInode inode with
      | none => (.error .stale, t)
      | some record =>
        if record.deleted then t.allocate key hardlinkKey
        else
          (.ok inode,
            { t with
              byKey := Function.update t.byKey key (some inode)
              byInode := Function.update t.byInode inode (some
                { record with
                  aliases := insert key record.aliases
                  lookupCount := saturatingAdd record.lookupCount 1 }) })
    | none => t.allocate key hardlinkKey

def addAlias (t : InodeTable) (inode : Nat) (key : VirtualNodeKey) :
    Except VfsError Unit × InodeTable :=
  match t.byInode inode with
  | none => (.error .notFound, t)
  | some record =>
    if record.deleted then (.error .notFound, t)
    else
      match t.byKey key with
      | some existing =>
        if existing = inode then (.ok (), t)
        else (.error (.invalidInput "alias already identifies another inode"), t)
      | none =>
        (.ok (),
          { t with
            byKey := Function.update t.byKey key (some inode)
            byInode := Function.update t.byInode inode (some
              { record with aliases := insert key record.aliases }) })

/-- `InodeTable::rename_alias`. The old key leaves `by_key` before the record
is looked up, so the `Stale` error leaves it removed. -/
def renameAlias (t : InodeTable) (old new : VirtualNodeKey) :
    Except VfsError Nat × InodeTable :=
  if (t.byKey new).isSome then
    (.error (.invalidInput "rename destination already exists"), t)
  else
    match t.byKey old with
    | none => (.error .notFound, t)
    | some inode =>
      let byKey := Function.update t.byKey old none
      match t.byInode inode with
      | none => (.error .stale, { t with byKey := byKey })
      | some record =>
        (.ok inode,
          { t with
            byKey := Function.update byKey new (some inode)
            byInode := Function.update t.byInode inode (some
              { record with
                aliases := insert new (record.aliases.erase old)
                canonicalKey :=
                  if record.canonicalKey = old then new else record.canonicalKey }) })

/-- `InodeTable::delete`. Draining the alias set removes each drained key from
`by_key`; the record itself is kept as a tombstone. There is no test whether
the record was deleted before. -/
def delete (t : InodeTable) (inode : Nat) : Except VfsError Unit × InodeTable :=
  if inode = rootInode then (.error (.invalidInput "root cannot be deleted"), t)
  else
    match t.byInode inode with
    | none => (.error .notFound, t)
    | some record =>
      (.ok (),
        { t with
          byKey := fun k => if k ∈ record.aliases then none else t.byKey k
          byHardlink :=
            match record.hardlinkKey with
            | some h => Function.update t.byHardlink h none
            | none => t.byHardlink
          byInode := Function.update t.byInode inode (some
            { record with deleted := true, aliases := ∅ }) })

def forget (t : InodeTable) (inode count : Nat) : InodeTable :=
  match t.byInode inode with
  | some record =>
    { t with byInode := Function.update t.byInode inode (some
        { record with lookupCount := record.lookupCount - count }) }
  | none => t

def lookup (t : InodeTable) (key : VirtualNodeKey) : Option Nat := t.byKey key

/-! ## Runs of the table -/

inductive Call where
  | inodeFor (key : VirtualNodeKey) (hardlinkKey : Option HardlinkKey)
  | addAlias (inode : Nat) (key : VirtualNodeKey)
  | renameAlias (old new : VirtualNodeKey)
  | delete (inode : Nat)
  | forget (inode count : Nat)

def after (t : InodeTable) : Call → InodeTable
  | .inodeFor key hardlinkKey => (t.inodeFor key hardlinkKey).2
  | .addAlias inode key => (t.addAlias inode key).2
  | .renameAlias old new => (t.renameAlias old new).2
  | .delete inode => (t.delete inode).2
  | .forget inode count => t.forget inode count

def machine : Machine InodeTable Call where
  init t := t = new
  step t c := some (t.after c)

/-! ## Coherence -/

/-- Record `r` is filed under `i` and has not been deleted. -/
def Live (t : InodeTable) (i : Nat) (r : InodeRecord) : Prop :=
  t.byInode i = some r ∧ r.deleted = false

/-- The hardlink map says exactly what the live records say: every live record
with a key is found by it, and no two live records share one. -/
def HardlinksExact (t : InodeTable) : Prop :=
  ∀ h i, t.byHardlink h = some i ↔ ∃ r, t.Live i r ∧ r.hardlinkKey = some h

structure Coherent (t : InodeTable) : Prop where
  key_iff : ∀ k i, t.byKey k = some i ↔ ∃ r, t.Live i r ∧ k ∈ r.aliases
  hardlink_iff : t.HardlinksExact
  canonical_mem : ∀ i r, t.Live i r → r.canonicalKey ∈ r.aliases
  below_next : ∀ i r, t.byInode i = some r → i < t.nextInode

/-- The part of coherence that no call can break, with the fact it rests on:
a tombstone has no aliases left. -/
structure Keyed (t : InodeTable) : Prop where
  key_iff : ∀ k i, t.byKey k = some i ↔ ∃ r, t.Live i r ∧ k ∈ r.aliases
  canonical_mem : ∀ i r, t.Live i r → r.canonicalKey ∈ r.aliases
  below_next : ∀ i r, t.byInode i = some r → i < t.nextInode
  drained : ∀ i r, t.byInode i = some r → r.deleted = true → r.aliases = ∅

variable {t t' : InodeTable} {count i inode : Nat} {r : InodeRecord} {key : VirtualNodeKey}
  {h : HardlinkKey}

theorem Keyed.coherent_iff (ht : Keyed t) : Coherent t ↔ t.HardlinksExact :=
  ⟨Coherent.hardlink_iff, fun h => ⟨ht.key_iff, h, ht.canonical_mem, ht.below_next⟩⟩

theorem live_update (hinode : t'.byInode = Function.update t.byInode i (some r)) (j : Nat)
    (x : InodeRecord) :
    t'.Live j x ↔ (j ≠ i ∧ t.Live j x) ∨ (j = i ∧ r.deleted = false ∧ x = r) := by
  by_cases hj : j = i
  · subst hj
    constructor
    · rintro ⟨hx, hd⟩
      rw [hinode, Function.update_self] at hx
      cases hx
      exact .inr ⟨rfl, hd, rfl⟩
    · rintro (⟨hne, -⟩ | ⟨-, hd, rfl⟩)
      · exact absurd rfl hne
      · exact ⟨by rw [hinode, Function.update_self], hd⟩
  · simp [Live, hinode, hj]

/-- **The update rule for keys**: filing `r` under `i` is fine when `byKey`
changes to exactly what `r` says about `i` and stays as it was elsewhere. -/
theorem Keyed.update (ht : Keyed t) (hinode : t'.byInode = Function.update t.byInode i (some r))
    (hkey : ∀ k j, t'.byKey k = some j ↔
      (j ≠ i ∧ t.byKey k = some j) ∨ (j = i ∧ r.deleted = false ∧ k ∈ r.aliases))
    (hcanon : r.deleted = false → r.canonicalKey ∈ r.aliases)
    (hdrained : r.deleted = true → r.aliases = ∅) (hi : i < t'.nextInode)
    (hnext : t.nextInode ≤ t'.nextInode) : Keyed t' := by
  have hlive := live_update hinode
  have hold : ∀ j x, j ≠ i → t'.byInode j = some x → t.byInode j = some x := by
    intro j x hj hx
    rwa [hinode, Function.update_of_ne hj] at hx
  refine ⟨fun k j => ?_, fun j x hx => ?_, fun j x hx => ?_, fun j x hx hd => ?_⟩
  · rw [hkey, ht.key_iff]
    simp only [hlive]
    constructor
    · rintro (⟨hne, x, hx, hk⟩ | ⟨hj, hd, hk⟩)
      · exact ⟨x, .inl ⟨hne, hx⟩, hk⟩
      · exact ⟨r, .inr ⟨hj, hd, rfl⟩, hk⟩
    · rintro ⟨x, ⟨hne, hx⟩ | ⟨hj, hd, rfl⟩, hk⟩
      · exact .inl ⟨hne, x, hx, hk⟩
      · exact .inr ⟨hj, hd, hk⟩
  · rcases (hlive j x).mp hx with ⟨-, hx⟩ | ⟨-, hd, rfl⟩
    · exact ht.canonical_mem j x hx
    · exact hcanon hd
  · by_cases hj : j = i
    · exact hj ▸ hi
    · exact (ht.below_next j x (hold j x hj hx)).trans_le hnext
  · by_cases hj : j = i
    · subst hj
      rw [hinode, Function.update_self] at hx
      cases hx
      exact hdrained hd
    · exact ht.drained j x (hold j x hj hx) hd

/-- **The update rule for hardlinks.** -/
theorem HardlinksExact.update (ht : t.HardlinksExact)
    (hinode : t'.byInode = Function.update t.byInode i (some r))
    (hhard : ∀ h j, t'.byHardlink h = some j ↔
      (j ≠ i ∧ t.byHardlink h = some j) ∨
        (j = i ∧ r.deleted = false ∧ r.hardlinkKey = some h)) : t'.HardlinksExact := by
  have hlive := live_update hinode
  intro h j
  rw [hhard, ht h j]
  simp only [hlive]
  constructor
  · rintro (⟨hne, x, hx, hk⟩ | ⟨hj, hd, hk⟩)
    · exact ⟨x, .inl ⟨hne, hx⟩, hk⟩
    · exact ⟨r, .inr ⟨hj, hd, rfl⟩, hk⟩
  · rintro ⟨x, ⟨hne, hx⟩ | ⟨hj, hd, rfl⟩, hk⟩
    · exact .inl ⟨hne, x, hx, hk⟩
    · exact .inr ⟨hj, hd, hk⟩

/-- What a record says about itself is what `byKey` says about it. -/
theorem Keyed.key_self (ht : Keyed t) (hr : t.byInode i = some r) (k : VirtualNodeKey) :
    t.byKey k = some i ↔ r.deleted = false ∧ k ∈ r.aliases := by
  rw [ht.key_iff]
  constructor
  · rintro ⟨x, ⟨hx, hd⟩, hk⟩
    cases hr.symm.trans hx
    exact ⟨hd, hk⟩
  · rintro ⟨hd, hk⟩
    exact ⟨r, ⟨hr, hd⟩, hk⟩

theorem HardlinksExact.self (ht : t.HardlinksExact) (hr : t.byInode i = some r) (h : HardlinkKey) :
    t.byHardlink h = some i ↔ r.deleted = false ∧ r.hardlinkKey = some h := by
  rw [ht h i]
  constructor
  · rintro ⟨x, ⟨hx, hd⟩, hk⟩
    cases hr.symm.trans hx
    exact ⟨hd, hk⟩
  · rintro ⟨hd, hk⟩
    exact ⟨r, ⟨hr, hd⟩, hk⟩

/-- A change that keeps the record's hardlink key and its life keeps the
hardlink map exact. -/
theorem HardlinksExact.keep {r' : InodeRecord} (ht : t.HardlinksExact) (hr : t.byInode i = some r)
    (hinode : t'.byInode = Function.update t.byInode i (some r'))
    (hmap : t'.byHardlink = t.byHardlink) (hd : r'.deleted = r.deleted)
    (hh : r'.hardlinkKey = r.hardlinkKey) : t'.HardlinksExact := by
  refine ht.update hinode fun h j => ?_
  rw [hmap, hd, hh]
  by_cases hj : j = i
  · subst hj
    simpa using ht.self hr h
  · simp [hj]

theorem Keyed.fresh (ht : Keyed t) : t.byInode t.nextInode = none := by
  cases hr : t.byInode t.nextInode with
  | none => rfl
  | some r => exact absurd (ht.below_next _ r hr) (Nat.lt_irrefl _)

/-! ## One lemma for each change of the table -/

theorem keyed_new : Keyed new := by
  have hempty : Keyed ⟨fun _ => none, fun _ => none, fun _ => none, rootInode⟩ := by
    refine ⟨fun k i => by simp [Live], ?_, ?_, ?_⟩
    · rintro i r ⟨hr, -⟩
      cases hr
    · rintro i r hr
      cases hr
    · rintro i r hr
      cases hr
  refine hempty.update (i := rootInode) rfl (fun k j => ?_)
    (fun _ => Finset.mem_singleton_self _) (fun hd => by cases hd) (Nat.lt_succ_self _)
    (Nat.le_succ _)
  by_cases hk : k = VirtualNodeKey.root
  · subst hk
    simp [new, eq_comm]
  · simp [new, hk]

theorem hardlinksExact_new : new.HardlinksExact := by
  intro h i
  constructor
  · intro hh
    simp [new] at hh
  · rintro ⟨r, ⟨hr, -⟩, hh⟩
    by_cases hi : i = rootInode
    · subst hi
      simp only [new, Function.update_self, Option.some.injEq] at hr
      subst hr
      cases hh
    · simp [new, hi] at hr

theorem keyed_allocate (ht : Keyed t) (hardlinkKey : Option HardlinkKey)
    (hkey : t.byKey key = none) :
    Keyed (t.allocate key hardlinkKey).2 := by
  unfold allocate
  split
  · refine ht.update (i := t.nextInode) rfl (fun k j => ?_)
      (fun _ => Finset.mem_singleton_self _) (fun hd => by cases hd) (Nat.lt_succ_self _)
      (Nat.le_succ _)
    by_cases hk : k = key
    · subst hk
      simp [hkey, eq_comm]
    · have hold : t.byKey k = some j → j ≠ t.nextInode := by
        rintro hj rfl
        obtain ⟨r, hr, -⟩ := (ht.key_iff _ _).mp hj
        exact absurd (hr.1.symm.trans ht.fresh) (by simp)
      simp only [ne_eq, hk, not_false_eq_true, Function.update_of_ne,
        Finset.mem_singleton, and_false, or_false]
      exact ⟨fun hj => ⟨hold hj, hj⟩, fun hj => hj.2⟩
  · exact ht

theorem hardlinksExact_allocate (hk : Keyed t) (ht : t.HardlinksExact) (key : VirtualNodeKey)
    {hardlinkKey : Option HardlinkKey} (hfree : ∀ h, hardlinkKey = some h → t.byHardlink h = none) :
    (t.allocate key hardlinkKey).2.HardlinksExact := by
  unfold allocate
  split
  · refine ht.update (i := t.nextInode) rfl fun h j => ?_
    have hold : t.byHardlink h = some j → j ≠ t.nextInode := by
      rintro hj rfl
      obtain ⟨r, hr, -⟩ := (ht _ _).mp hj
      exact absurd (hr.1.symm.trans hk.fresh) (by simp)
    cases hardlinkKey with
    | none =>
      simp only [reduceCtorEq, and_false, or_false]
      exact ⟨fun hj => ⟨hold hj, hj⟩, fun hj => hj.2⟩
    | some h' =>
      by_cases hh : h = h'
      · subst hh
        simp [hfree h rfl, eq_comm]
      · simp only [ne_eq, hh, not_false_eq_true, Function.update_of_ne,
          Option.some.injEq, Ne.symm hh, and_false, or_false]
        exact ⟨fun hj => ⟨hold hj, hj⟩, fun hj => hj.2⟩
  · exact ht

/-- Adding an unused key to a live record, in the record and in `byKey`. -/
theorem keyed_insert_alias (ht : Keyed t) (hr : t.byInode i = some r) (hd : r.deleted = false)
    (hkey : t.byKey key = none) : Keyed { t with
      byKey := Function.update t.byKey key (some i)
      byInode := Function.update t.byInode i (some
        { r with aliases := insert key r.aliases, lookupCount := count }) } := by
  refine ht.update (i := i) rfl (fun k j => ?_) (fun _ => ?_)
    (fun hd' => by simp [hd] at hd') (ht.below_next i r hr) le_rfl
  · by_cases hk : k = key
    · subst hk
      simp [hkey, hd, eq_comm]
    · by_cases hj : j = i
      · subst hj
        simp [hk, hd, ht.key_self hr k]
      · simp [hk, hj]
  · exact Finset.mem_insert_of_mem (ht.canonical_mem i r ⟨hr, hd⟩)

theorem keyed_set_count (ht : Keyed t) (hr : t.byInode i = some r) : Keyed { t with
      byInode := Function.update t.byInode i (some { r with lookupCount := count }) } := by
  refine ht.update (i := i) rfl (fun k j => ?_) (fun hd => ht.canonical_mem i r ⟨hr, hd⟩)
    (ht.drained i r hr) (ht.below_next i r hr) le_rfl
  by_cases hj : j = i
  · subst hj
    simpa using ht.key_self hr k
  · simp [hj]

theorem keyed_inodeFor (ht : Keyed t) (key : VirtualNodeKey) (hardlinkKey : Option HardlinkKey) :
    Keyed (t.inodeFor key hardlinkKey).2 := by
  unfold inodeFor
  split
  · split
    · rename_i hrec
      split
      · exact ht
      · exact keyed_set_count ht hrec
    · exact ht
  · rename_i hnone
    split
    · split
      · exact ht
      · rename_i hrec
        split
        · exact keyed_allocate ht _ hnone
        · rename_i hd
          exact keyed_insert_alias ht hrec (by simpa using hd) hnone
    · exact keyed_allocate ht _ hnone

theorem hardlinksExact_inodeFor (hk : Keyed t) (ht : t.HardlinksExact) (key : VirtualNodeKey)
    (hardlinkKey : Option HardlinkKey) : (t.inodeFor key hardlinkKey).2.HardlinksExact := by
  unfold inodeFor
  split
  · split
    · rename_i hrec
      split
      · exact ht
      · exact ht.keep hrec rfl rfl rfl rfl
    · exact ht
  · split
    · rename_i inode hfound
      obtain ⟨h, rfl, hh⟩ := Option.bind_eq_some_iff.mp hfound
      obtain ⟨r, ⟨hr, hd⟩, -⟩ := (ht h inode).mp hh
      -- an exact map only names live records, so the tombstone branch is dead
      split
      · exact ht
      · rename_i hrec
        cases hr.symm.trans hrec
        rw [if_neg (by simp [hd])]
        exact ht.keep hr rfl rfl rfl rfl
    · rename_i hfound
      refine hardlinksExact_allocate hk ht key ?_
      rintro h rfl
      simpa using hfound

theorem keyed_addAlias (ht : Keyed t) (inode : Nat) (key : VirtualNodeKey) :
    Keyed (t.addAlias inode key).2 := by
  unfold addAlias
  split
  · exact ht
  · rename_i record hrec
    split
    · exact ht
    · rename_i hd
      split
      · split <;> exact ht
      · rename_i hnone
        exact keyed_insert_alias ht hrec (by simpa using hd) hnone

theorem hardlinksExact_addAlias (ht : t.HardlinksExact) (inode : Nat) (key : VirtualNodeKey) :
    (t.addAlias inode key).2.HardlinksExact := by
  unfold addAlias
  split
  · exact ht
  · rename_i record hrec
    split
    · exact ht
    · split
      · split <;> exact ht
      · exact ht.keep hrec rfl rfl rfl rfl

theorem keyed_renameAlias (ht : Keyed t) (old new : VirtualNodeKey) :
    Keyed (t.renameAlias old new).2 := by
  unfold renameAlias
  split
  · exact ht
  · rename_i hnew
    have hnone : t.byKey new = none := by simpa using hnew
    split
    · exact ht
    · rename_i inode hold
      obtain ⟨r, ⟨hr, hd⟩, -⟩ := (ht.key_iff old inode).mp hold
      simp only [hr]
      refine ht.update (i := inode) rfl (fun k j => ?_) (fun _ => ?_)
        (fun hd' => by simp [hd] at hd') (ht.below_next inode r hr) le_rfl
      · by_cases hk : k = new
        · subst hk
          simp [hnone, hd, eq_comm]
        · by_cases hko : k = old
          · subst hko
            have : ¬ (j ≠ inode ∧ t.byKey k = some j) := fun h =>
              h.1 (Option.some.inj (h.2.symm.trans hold))
            simp [hk, this]
          · by_cases hj : j = inode
            · subst hj
              simp [hk, hko, hd, ht.key_self hr k]
            · simp [hk, hko, hj]
      · have hc := ht.canonical_mem inode r ⟨hr, hd⟩
        by_cases hco : r.canonicalKey = old
        · simp [hco]
        · simp [hco, hc]

theorem hardlinksExact_renameAlias (hk : Keyed t) (ht : t.HardlinksExact) (old new : VirtualNodeKey)
    : (t.renameAlias old new).2.HardlinksExact := by
  unfold renameAlias
  split
  · exact ht
  · split
    · exact ht
    · rename_i inode hold
      obtain ⟨r, ⟨hr, -⟩, -⟩ := (hk.key_iff old inode).mp hold
      simp only [hr]
      exact ht.keep hr rfl rfl rfl rfl

theorem keyed_forget (ht : Keyed t) (inode count : Nat) : Keyed (t.forget inode count) := by
  unfold forget
  split
  · rename_i hr
    exact keyed_set_count ht hr
  · exact ht

theorem hardlinksExact_forget (ht : t.HardlinksExact) (inode count : Nat) :
    (t.forget inode count).HardlinksExact := by
  unfold forget
  split
  · rename_i hr
    exact ht.keep hr rfl rfl rfl rfl
  · exact ht

theorem keyed_delete (ht : Keyed t) (inode : Nat) : Keyed (t.delete inode).2 := by
  unfold delete
  split
  · exact ht
  · split
    · exact ht
    · rename_i r hr
      refine ht.update (i := inode) rfl (fun k j => ?_) (fun hd => by cases hd)
        (fun _ => rfl) (ht.below_next inode r hr) le_rfl
      have hself := ht.key_self hr k
      by_cases hk : k ∈ r.aliases
      · -- a tombstone has nothing left to drain, so `r` is live and owns `k`
        have hd : r.deleted = false := by
          cases hd : r.deleted with
          | false => rfl
          | true => simp [ht.drained inode r hr hd] at hk
        have : ¬ (j ≠ inode ∧ t.byKey k = some j) := fun h =>
          h.1 (Option.some.inj (h.2.symm.trans (hself.mpr ⟨hd, hk⟩)))
        simp [hk, this]
      · by_cases hj : j = inode
        · subst hj
          simp [hk, hself]
        · simp [hk, hj]

/-! ## Deleting twice -/

/-- The one call coherence does not survive is a repeated `delete`: the record
is a tombstone already, and the hardlink key it carries is in use again. -/
def NoStaleDelete (t : InodeTable) : Call → Prop
  | .delete inode => ∀ r h, inode ≠ rootInode → t.byInode inode = some r →
      r.deleted = true → r.hardlinkKey = some h → t.byHardlink h = none
  | _ => True

theorem hardlinksExact_delete (ht : t.HardlinksExact) (hok : NoStaleDelete t (.delete inode)) :
    (t.delete inode).2.HardlinksExact := by
  unfold delete
  split
  · exact ht
  · rename_i hroot
    split
    · exact ht
    · rename_i r hr
      refine ht.update (i := inode) rfl fun h j => ?_
      have hself := ht.self hr h
      cases hkey : r.hardlinkKey with
      | none =>
        by_cases hj : j = inode
        · subst hj
          simp [hself, hkey]
        · simp [hj]
      | some h' =>
        by_cases hh : h = h'
        · subst hh
          have : ¬ (j ≠ inode ∧ t.byHardlink h = some j) := by
            rintro ⟨hj, hfound⟩
            cases hd : r.deleted with
            | false => exact hj (Option.some.inj (hfound.symm.trans (hself.mpr ⟨hd, hkey⟩)))
            | true => simp [hok r h hroot hr hd hkey] at hfound
          simp [this]
        · by_cases hj : j = inode
          · subst hj
            simp [hh, hself, hkey, Ne.symm hh]
          · simp [hh, hj]

theorem not_hardlinksExact_delete (ht : t.HardlinksExact) (hbad : ¬ NoStaleDelete t (.delete inode))
    : ¬ (t.delete inode).2.HardlinksExact := by
  simp only [NoStaleDelete, not_forall] at hbad
  obtain ⟨r, h, hroot, hr, hd, hkey, hfound⟩ := hbad
  obtain ⟨j, hj⟩ := Option.ne_none_iff_exists'.mp hfound
  obtain ⟨x, ⟨hx, hxd⟩, hxk⟩ := (ht h j).mp hj
  have hne : j ≠ inode := by
    rintro rfl
    cases hr.symm.trans hx
    simp [hd] at hxd
  intro hexact
  -- the live owner `j` keeps its record but loses its entry
  have hlost : (t.delete inode).2.byHardlink h = none := by
    simp [delete, hroot, hr, hkey]
  have hstill : (t.delete inode).2.Live j x := by
    simp [Live, delete, hroot, hr, hne, hx, hxd]
  simp [(hexact h j).mpr ⟨x, hstill, hxk⟩] at hlost

/-! ## Whole runs -/

theorem keyed_after (ht : Keyed t) (c : Call) : Keyed (t.after c) := by
  cases c with
  | inodeFor key hardlinkKey => exact keyed_inodeFor ht key hardlinkKey
  | addAlias inode key => exact keyed_addAlias ht inode key
  | renameAlias old new => exact keyed_renameAlias ht old new
  | delete inode => exact keyed_delete ht inode
  | forget inode count => exact keyed_forget ht inode count

theorem hardlinksExact_after (hk : Keyed t) (ht : t.HardlinksExact) {c : Call}
    (hok : NoStaleDelete t c) : (t.after c).HardlinksExact := by
  cases c with
  | inodeFor key hardlinkKey => exact hardlinksExact_inodeFor hk ht key hardlinkKey
  | addAlias inode key => exact hardlinksExact_addAlias ht inode key
  | renameAlias old new => exact hardlinksExact_renameAlias hk ht old new
  | delete inode => exact hardlinksExact_delete ht hok
  | forget inode count => exact hardlinksExact_forget ht inode count

/-- **Keys and counters are always right**, whatever is called in whatever
order: only the hardlink map is at risk. -/
theorem keyed_of_reach (h : machine.Reach (fun _ _ => True) t) : Keyed t := by
  refine h.invariant (fun s hs => ?_) (fun s c s' hs _ hstep => ?_)
  · cases hs
    exact keyed_new
  · cases hstep
    exact keyed_after hs c

/-- **Exactly the repeated deletes break the table**: along any run from
`new`, all states are coherent if and only if no call deletes a tombstone
whose hardlink key is in use again. -/
theorem coherent_along_iff_noStaleDelete (calls : List Call) :
    machine.AllStates Coherent new calls ↔ machine.AllSteps NoStaleDelete new calls := by
  refine Machine.allStates_iff_allSteps (J := Keyed) ?_ ?_ ?_ ?_ keyed_new
    (keyed_new.coherent_iff.mpr hardlinksExact_new)
  · intro t c t' hk hstep
    cases hstep
    exact keyed_after hk c
  · intro t c t' hk ht hok hstep
    cases hstep
    exact (keyed_after hk c).coherent_iff.mpr (hardlinksExact_after hk ht.hardlink_iff hok)
  · intro t c t' hk ht hbad hstep
    cases hstep
    cases c with
    | delete inode =>
      exact fun h => not_hardlinksExact_delete ht.hardlink_iff hbad h.hardlink_iff
    | inodeFor | addAlias | renameAlias | forget => exact absurd trivial hbad
  · exact fun t c _ => ⟨_, rfl⟩

/-- The key of `/a`, `/b`, … in the style of the table's own tests. -/
def sampleKey (path : VirtualPath) : VirtualNodeKey where
  daemonIdentity := "daemon"
  resourceKind := "container"
  resourceId := "container-id"
  providerKey := "rootfs"
  logicalPath := path
  generation := 1

def sampleHardlink : HardlinkKey where
  daemonIdentity := "daemon"
  resourceKind := "container"
  resourceId := "container-id"
  providerKey := "rootfs"
  providerNodeId := [110, 111, 100, 101]
  generation := 1

/-- `/a` and `/b` are hardlinks of one node; `/a` gets inode 2, is deleted, `/b`
gets inode 3, and 2 is deleted once more: inode 3 is live and carries the key,
but the hardlink map has lost it. -/
theorem second_delete_hides_live_record :
    ¬ machine.AllStates Coherent new
      [.inodeFor (sampleKey (pathOf "/a")) (some sampleHardlink), .delete 2,
        .inodeFor (sampleKey (pathOf "/b")) (some sampleHardlink), .delete 2] := by
  rintro ⟨-, h⟩
  obtain ⟨-, h⟩ := h _ rfl
  obtain ⟨-, h⟩ := h _ rfl
  obtain ⟨-, h⟩ := h _ rfl
  have hc := h _ rfl
  have hfound := (hc.hardlink_iff sampleHardlink 3).mpr ⟨_, ⟨rfl, rfl⟩, rfl⟩
  exact absurd hfound (by decide)

/-! ## Generations

Without `delete` and renames an inode never changes the generation it was
allocated for, and it is only found under keys of that generation. -/

/-- The generation an inode was allocated for. -/
def stamp (t : InodeTable) (inode : Nat) : Option Nat :=
  (t.byInode inode).map fun r => r.canonicalKey.generation

/-- Inodes are only found under keys of their own generation. -/
structure Stamped (t : InodeTable) : Prop where
  keyed : Keyed t
  key : ∀ k i, t.byKey k = some i → t.stamp i = some k.generation
  hardlink : ∀ h i, t.byHardlink h = some i → t.stamp i = some h.generation

theorem stamped_new : Stamped new where
  keyed := keyed_new
  key := by
    intro k i hi
    by_cases hk : k = VirtualNodeKey.root
    · subst hk
      simp only [new, Function.update_self, Option.some.injEq] at hi
      subst hi
      rfl
    · simp [new, hk] at hi
  hardlink := by
    intro h i hi
    simp [new] at hi

theorem stamp_update (hr : t.byInode i = some r) (r' : InodeRecord)
    (hcanon : r'.canonicalKey = r.canonicalKey) (byKey : VirtualNodeKey → Option Nat) :
    stamp ⟨byKey, t.byHardlink, Function.update t.byInode i (some r'), t.nextInode⟩ =
      t.stamp := by
  funext j
  by_cases hj : j = i
  · subst hj
    simp [stamp, hr, hcanon]
  · simp [stamp, hj]

/-- What `inode_for` promises about generations: old stamps stay, and the inode
it answers has the stamp of the key. -/
structure Stamps (t : InodeTable) (key : VirtualNodeKey)
    (out : Except VfsError Nat × InodeTable) : Prop where
  stamped : Stamped out.2
  old : ∀ i g, t.stamp i = some g → out.2.stamp i = some g
  answer : ∀ i, out.1 = .ok i → out.2.stamp i = some key.generation

theorem stamps_allocate (ht : Stamped t) (hgen : h.generation = key.generation)
    (hkey : t.byKey key = none) : Stamps t key (t.allocate key (some h)) := by
  have hkeyed := keyed_allocate ht.keyed (some h) hkey
  unfold allocate at hkeyed ⊢
  split
  · rename_i hspace
    rw [if_pos hspace] at hkeyed
    have hfresh := ht.keyed.fresh
    have hne : ∀ i g, t.stamp i = some g → i ≠ t.nextInode := by
      rintro i g hi rfl
      simp [stamp, hfresh] at hi
    have hstamp : ∀ i, i ≠ t.nextInode → ∀ r, Option.map
        (fun r : InodeRecord => r.canonicalKey.generation)
          (Function.update t.byInode t.nextInode (some r) i) = t.stamp i := by
      intro i hi r
      rw [Function.update_of_ne hi]
      rfl
    have hold : ∀ i g r, t.stamp i = some g → Option.map
        (fun r : InodeRecord => r.canonicalKey.generation)
          (Function.update t.byInode t.nextInode (some r) i) = some g := by
      intro i g r hi
      rw [hstamp i (hne i g hi), hi]
    refine ⟨⟨hkeyed, fun k i hi => ?_, fun h' i hi => ?_⟩, fun i g hi => hold i g _ hi,
      fun i hi => ?_⟩
    · by_cases hk : k = key
      · subst hk
        simp only [Function.update_self, Option.some.injEq] at hi
        subst hi
        simp [stamp]
      · simp only [Function.update_of_ne hk] at hi
        exact hold i _ _ (ht.key k i hi)
    · by_cases hh : h' = h
      · subst hh
        simp only [Function.update_self, Option.some.injEq] at hi
        subst hi
        simp [stamp, hgen]
      · simp only [Function.update_of_ne hh] at hi
        exact hold i _ _ (ht.hardlink h' i hi)
    · cases hi
      simp [stamp]
  · exact ⟨ht, fun _ _ hi => hi, fun i hi => by cases hi⟩

/-- **`inode_for` keeps generations apart.** -/
theorem stamps_inodeFor (ht : Stamped t) (hgen : h.generation = key.generation) :
    Stamps t key (t.inodeFor key (some h)) := by
  have hkeyed := keyed_inodeFor ht.keyed key (some h)
  unfold inodeFor at hkeyed ⊢
  cases hfound : t.byKey key with
  | some inode =>
    have hanswer := ht.key key inode hfound
    cases hrec : t.byInode inode with
    | none => simp [stamp, hrec] at hanswer
    | some record =>
      simp only [hfound, hrec] at hkeyed ⊢
      by_cases hd : record.deleted = true
      · rw [if_pos hd]
        exact ⟨ht, fun _ _ hi => hi, fun i hi => by cases hi⟩
      · rw [if_neg hd] at hkeyed ⊢
        have hstamp := stamp_update hrec
          { record with lookupCount := saturatingAdd record.lookupCount 1 } rfl
          t.byKey
        refine ⟨⟨hkeyed, fun k i hi => ?_, fun h' i hi => ?_⟩, fun i g hi => ?_,
          fun i hi => ?_⟩
        · rw [hstamp]
          exact ht.key k i hi
        · rw [hstamp]
          exact ht.hardlink h' i hi
        · rwa [hstamp]
        · cases hi
          rwa [hstamp]
  | none =>
    simp only [hfound, Option.bind_some] at hkeyed ⊢
    cases hlink : t.byHardlink h with
    | none => exact stamps_allocate ht hgen hfound
    | some inode =>
      have hanswer := ht.hardlink h inode hlink
      cases hrec : t.byInode inode with
      | none => simp [stamp, hrec] at hanswer
      | some record =>
        simp only [hlink, hrec] at hkeyed ⊢
        by_cases hd : record.deleted = true
        · rw [if_pos hd]
          exact stamps_allocate ht hgen hfound
        · rw [if_neg hd] at hkeyed ⊢
          -- a second name of a live hard link: its stamp is the one the key carries
          have hstamp := stamp_update hrec
            { record with
              aliases := insert key record.aliases
              lookupCount := saturatingAdd record.lookupCount 1 } rfl
            (Function.update t.byKey key (some inode))
          refine ⟨⟨hkeyed, fun k i hi => ?_, fun h' i hi => ?_⟩, fun i g hi => ?_,
            fun i hi => ?_⟩
          · rw [hstamp]
            by_cases hk : k = key
            · subst hk
              simp only [Function.update_self, Option.some.injEq] at hi
              subst hi
              rw [hanswer, hgen]
            · simp only [Function.update_of_ne hk] at hi
              exact ht.key k i hi
          · rw [hstamp]
            exact ht.hardlink h' i hi
          · rwa [hstamp]
          · cases hi
            rw [hstamp, hanswer, hgen]

theorem stamped_forget (ht : Stamped t) (inode count : Nat) :
    Stamped (t.forget inode count) ∧ (t.forget inode count).stamp = t.stamp := by
  have hkeyed := keyed_forget ht.keyed inode count
  unfold forget at hkeyed ⊢
  cases hrec : t.byInode inode with
  | none => exact ⟨ht, rfl⟩
  | some record =>
    simp only [hrec] at hkeyed ⊢
    have hstamp := stamp_update hrec
      { record with lookupCount := record.lookupCount - count } rfl t.byKey
    refine ⟨⟨hkeyed, fun k i hi => ?_, fun h i hi => ?_⟩, hstamp⟩
    · rw [hstamp]
      exact ht.key k i hi
    · rw [hstamp]
      exact ht.hardlink h i hi

end InodeTable

end TuxStack.Vfs
