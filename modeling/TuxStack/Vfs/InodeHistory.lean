import TuxStack.Vfs.Inode

/-!
# Inode numbers over time

What the answers of an inode table say over a whole history of calls
(`crates/tuxstack-vfs/src/inode.rs`, tests `crates/tuxstack-vfs/tests/inode_handles.rs`).
A record is never taken out of the table: `delete` leaves a tombstone, and the counter
only grows. So a number that was deleted is not answered again, a key keeps its number
as long as it is not renamed and the number not deleted, and a fresh number is new.

`Keyed` carries these results; the hardlink map, which a repeated `delete` can spoil, is
not relied on.
-/

namespace TuxStack.Vfs

open Runs

namespace InodeTable

/-! ## Histories -/

/-- An operation of a history: a call, or the read-only `lookup`. -/
inductive Op where
  | call (c : Call)
  | lookup (key : VirtualNodeKey)

def Op.after (t : InodeTable) : Op → InodeTable
  | .call c => t.after c
  | .lookup _ => t

def Op.answer (t : InodeTable) : Op → Option Nat
  | .call (.inodeFor key hardlinkKey) =>
    match (t.inodeFor key hardlinkKey).1 with
    | .ok inode => some inode
    | .error _ => none
  | .call (.renameAlias old new) =>
    match (t.renameAlias old new).1 with
    | .ok inode => some inode
    | .error _ => none
  | .call _ => none
  | .lookup key => t.lookup key

def Op.asked : Op → Option VirtualNodeKey
  | .call (.inodeFor key _) => some key
  | .lookup key => some key
  | _ => none

def histories : Machine InodeTable Op where
  init t := t = new
  step t op := some (op.after t)

/-- The operation neither renames the key nor deletes the number: what it does that way
fails. -/
def Keeps (key : VirtualNodeKey) (inode : Nat) (t : InodeTable) (op : Op) : Prop :=
  (∀ new, op = .call (.renameAlias key new) → ∃ e, (t.renameAlias key new).1 = .error e) ∧
    (op = .call (.delete inode) → ∃ e, (t.delete inode).1 = .error e)

variable {t t' : InodeTable} {i : Nat} {op : Op} {key : VirtualNodeKey}

theorem keyed_op (ht : Keyed t) (op : Op) : Keyed (op.after t) := by
  cases op with
  | call c => exact keyed_after ht c
  | lookup key => exact ht

theorem keyed_of_history (h : histories.Reach (fun _ _ => True) t) : Keyed t := by
  refine h.invariant ?_ ?_
  · rintro s rfl
    exact keyed_new
  · rintro s op s' hs - hstep
    cases hstep
    exact keyed_op hs op

theorem exec_keeps {I : InodeTable → Prop} (hI : ∀ t op, Keyed t → I t → I (Op.after t op))
    {ops : List Op} (ht : Keyed t) (h : I t) (hexec : histories.exec t ops = some t') :
    Keyed t' ∧ I t' := by
  have hall : ∀ op ∈ ops, (fun _ : Op => True) op := fun _ _ => trivial
  refine Machine.exec_invariant (I := fun t => Keyed t ∧ I t) ?_ hall hexec ⟨ht, h⟩
  rintro s op s' ⟨hs, h⟩ - hstep
  cases hstep
  exact ⟨keyed_op hs op, hI s op hs h⟩

/-! ## What each operation can do -/

/-- **What `inode_for` does**: it answers with a live inode and files the key under it,
or with a fresh one, or it fails and changes nothing. -/
theorem inodeFor_cases (ht : Keyed t) (key : VirtualNodeKey) (hardlinkKey : Option HardlinkKey) :
    (∃ i r r', t.Live i r ∧ r'.deleted = false ∧
      (t.byKey key = none ∨ t.byKey key = some i) ∧
      (t.inodeFor key hardlinkKey).1 = .ok i ∧
      (t.inodeFor key hardlinkKey).2 =
        { t with
          byKey := Function.update t.byKey key (some i)
          byInode := Function.update t.byInode i (some r') }) ∨
    (∃ r' byHardlink, r'.deleted = false ∧ t.byKey key = none ∧
      (t.inodeFor key hardlinkKey).1 = .ok t.nextInode ∧
      (t.inodeFor key hardlinkKey).2 =
        { byKey := Function.update t.byKey key (some t.nextInode)
          byHardlink := byHardlink
          byInode := Function.update t.byInode t.nextInode (some r')
          nextInode := t.nextInode + 1 }) ∨
    t.byKey key = none ∧ ∃ e, t.inodeFor key hardlinkKey = (.error e, t) := by
  have hallocate : t.byKey key = none →
      (∃ r' byHardlink, r'.deleted = false ∧ t.byKey key = none ∧
        (t.allocate key hardlinkKey).1 = .ok t.nextInode ∧
        (t.allocate key hardlinkKey).2 =
          { byKey := Function.update t.byKey key (some t.nextInode)
            byHardlink := byHardlink
            byInode := Function.update t.byInode t.nextInode (some r')
            nextInode := t.nextInode + 1 }) ∨
      t.byKey key = none ∧ ∃ e, t.allocate key hardlinkKey = (.error e, t) := by
    intro hnone
    unfold allocate
    split
    · exact .inl ⟨_, _, rfl, hnone, rfl, rfl⟩
    · exact .inr ⟨hnone, _, rfl⟩
  cases hkey : t.byKey key with
  | some inode =>
    obtain ⟨r, ⟨hr, hd⟩, -⟩ := (ht.key_iff key inode).mp hkey
    let r' : InodeRecord := { r with lookupCount := saturatingAdd r.lookupCount 1 }
    have hfound : t.inodeFor key hardlinkKey =
        (.ok inode, { t with byInode := Function.update t.byInode inode (some r') }) := by
      unfold inodeFor
      simp only [hkey, hr, if_neg (by simp [hd] : ¬ r.deleted = true)]
      rfl
    refine .inl ⟨inode, r, r', ⟨hr, hd⟩, hd, .inr rfl, by rw [hfound], ?_⟩
    rw [hfound, ← hkey, Function.update_eq_self]
  | none =>
    have hallocated (h : t.inodeFor key hardlinkKey = t.allocate key hardlinkKey) := by
      rw [← h, hkey] at hallocate
      exact hallocate rfl
    cases hlink : hardlinkKey.bind t.byHardlink with
    | none =>
      refine .inr (hallocated ?_)
      unfold inodeFor
      simp only [hkey, hlink]
    | some inode =>
      cases hr : t.byInode inode with
      | none =>
        -- the link names an inode without a record
        refine .inr (.inr ⟨rfl, .stale, ?_⟩)
        unfold inodeFor
        simp only [hkey, hlink, hr]
      | some record =>
        cases hd : record.deleted with
        | true =>
          refine .inr (hallocated ?_)
          unfold inodeFor
          simp only [hkey, hlink, hr, hd, if_true]
        | false =>
          let r' : InodeRecord :=
            { record with
              aliases := insert key record.aliases
              lookupCount := saturatingAdd record.lookupCount 1 }
          have hfound : t.inodeFor key hardlinkKey =
              (.ok inode,
                { t with
                  byKey := Function.update t.byKey key (some inode)
                  byInode := Function.update t.byInode inode (some r') }) := by
            unfold inodeFor
            simp only [hkey, hlink, hr, if_neg (by simp [hd] : ¬ record.deleted = true)]
            rfl
          exact .inl ⟨inode, record, r', ⟨hr, hd⟩, hd, .inl rfl, by rw [hfound],
            by rw [hfound]⟩

/-- **What `rename_alias` does**: the new key takes the place of the old one, or it fails
and changes nothing. -/
theorem renameAlias_cases (ht : Keyed t) (old new : VirtualNodeKey) :
    (∃ i r r', t.Live i r ∧ r'.deleted = false ∧ t.byKey old = some i ∧ t.byKey new = none ∧
      (t.renameAlias old new).1 = .ok i ∧
      (t.renameAlias old new).2 =
        { t with
          byKey := Function.update (Function.update t.byKey old none) new (some i)
          byInode := Function.update t.byInode i (some r') }) ∨
    ∃ e, t.renameAlias old new = (.error e, t) := by
  cases hnew : t.byKey new with
  | some inode =>
    refine .inr ⟨.invalidInput "rename destination already exists", ?_⟩
    simp [renameAlias, hnew]
  | none =>
    cases hold : t.byKey old with
    | none =>
      refine .inr ⟨.notFound, ?_⟩
      simp [renameAlias, hnew, hold]
    | some inode =>
      obtain ⟨r, ⟨hr, hd⟩, -⟩ := (ht.key_iff old inode).mp hold
      let r' : InodeRecord :=
        { r with
          aliases := insert new (r.aliases.erase old)
          canonicalKey := if r.canonicalKey = old then new else r.canonicalKey }
      have hrenamed : t.renameAlias old new =
          (.ok inode,
            { t with
              byKey := Function.update (Function.update t.byKey old none) new (some inode)
              byInode := Function.update t.byInode inode (some r') }) := by
        simp [renameAlias, hnew, hold, hr, r']
      exact .inl ⟨inode, r, r', ⟨hr, hd⟩, hd, rfl, rfl, by rw [hrenamed],
        by rw [hrenamed]⟩

/-- **What is answered** is the number of a live record or the next one of the counter. -/
theorem answer_cases (ht : Keyed t) (hanswer : op.answer t = some i) :
    (∃ r, t.Live i r) ∨ i = t.nextInode ∧ (op.after t).nextInode = t.nextInode + 1 := by
  cases op with
  | lookup key =>
    obtain ⟨r, hlive, -⟩ := (ht.key_iff key i).mp hanswer
    exact .inl ⟨r, hlive⟩
  | call c =>
    cases c with
    | inodeFor key hardlinkKey =>
      simp only [Op.answer] at hanswer
      rcases inodeFor_cases ht key hardlinkKey with
        ⟨j, r, r', hlive, -, -, hok, -⟩ | ⟨r', byHardlink, -, -, hok, htable⟩ | ⟨-, e, herror⟩
      · rw [hok] at hanswer
        cases hanswer
        exact .inl ⟨r, hlive⟩
      · rw [hok] at hanswer
        cases hanswer
        exact .inr ⟨rfl, congrArg InodeTable.nextInode htable⟩
      · rw [herror] at hanswer
        cases hanswer
    | renameAlias old new =>
      simp only [Op.answer] at hanswer
      rcases renameAlias_cases ht old new with
        ⟨j, r, r', hlive, -, -, -, hok, -⟩ | ⟨e, herror⟩
      · rw [hok] at hanswer
        cases hanswer
        exact .inl ⟨r, hlive⟩
      · rw [herror] at hanswer
        cases hanswer
    | addAlias | delete | forget => cases hanswer

/-! ## Tombstones -/

def Tombstone (t : InodeTable) (i : Nat) : Prop :=
  ∃ r, t.byInode i = some r ∧ r.deleted = true

theorem Tombstone.not_live (h : Tombstone t i) (r : InodeRecord) : ¬ t.Live i r := by
  obtain ⟨r', hr', hd'⟩ := h
  rintro ⟨hr, hd⟩
  cases hr'.symm.trans hr
  rw [hd'] at hd
  cases hd

/-- A record filed under another number, or deleted itself, leaves the tombstone. -/
theorem Tombstone.update {j : Nat} {r' : InodeRecord} (h : Tombstone t i)
    (hinode : t'.byInode = Function.update t.byInode j (some r'))
    (hother : j = i → r'.deleted = true) : Tombstone t' i := by
  obtain ⟨r, hr, hd⟩ := h
  by_cases hj : j = i
  · subst hj
    exact ⟨r', by rw [hinode, Function.update_self], hother rfl⟩
  · exact ⟨r, by rw [hinode, Function.update_of_ne (Ne.symm hj), hr], hd⟩

theorem Tombstone.inodeFor (h : Tombstone t i) (ht : Keyed t) (key : VirtualNodeKey)
    (hardlinkKey : Option HardlinkKey) : Tombstone (t.inodeFor key hardlinkKey).2 i := by
  rcases inodeFor_cases ht key hardlinkKey with
    ⟨j, r, r', hlive, -, -, -, htable⟩ | ⟨r', byHardlink, -, -, -, htable⟩ | ⟨-, e, herror⟩
  · rw [htable]
    refine h.update rfl ?_
    rintro rfl
    exact absurd hlive (h.not_live r)
  · rw [htable]
    refine h.update rfl ?_
    rintro rfl
    obtain ⟨r, hr, -⟩ := h
    rw [ht.fresh] at hr
    cases hr
  · rw [herror]
    exact h

theorem Tombstone.addAlias (h : Tombstone t i) (inode : Nat) (key : VirtualNodeKey) :
    Tombstone (t.addAlias inode key).2 i := by
  unfold InodeTable.addAlias
  split
  · exact h
  · next record hr =>
    split
    · exact h
    · next hd =>
      split
      · split
        · exact h
        · exact h
      · refine h.update rfl ?_
        rintro rfl
        exact absurd ⟨hr, by simpa using hd⟩ (h.not_live record)

theorem Tombstone.after (h : Tombstone t i) (ht : Keyed t) (op : Op) :
    Tombstone (op.after t) i := by
  cases op with
  | lookup key => exact h
  | call c =>
    cases c with
    | inodeFor key hardlinkKey => exact h.inodeFor ht key hardlinkKey
    | addAlias inode key => exact h.addAlias inode key
    | renameAlias old new =>
      show Tombstone (t.renameAlias old new).2 i
      rcases renameAlias_cases ht old new with
        ⟨j, r, r', hlive, -, -, -, -, htable⟩ | ⟨e, herror⟩
      · rw [htable]
        refine h.update rfl ?_
        rintro rfl
        exact absurd hlive (h.not_live r)
      · rw [herror]
        exact h
    | delete inode =>
      show Tombstone (t.delete inode).2 i
      unfold InodeTable.delete
      split
      · exact h
      · split
        · exact h
        · exact h.update rfl fun _ => rfl
    | forget inode count =>
      show Tombstone (t.forget inode count) i
      unfold InodeTable.forget
      split
      · next record hr =>
        refine h.update rfl ?_
        rintro rfl
        obtain ⟨r, hr', hd⟩ := h
        cases hr'.symm.trans hr
        exact hd
      · exact h

/-- **A deleted number is not answered.** -/
theorem Tombstone.not_answered (h : Tombstone t i) (ht : Keyed t) (op : Op) :
    op.answer t ≠ some i := by
  intro hanswer
  rcases answer_cases ht hanswer with ⟨r, hlive⟩ | ⟨rfl, -⟩
  · exact h.not_live r hlive
  · obtain ⟨r, hr, -⟩ := h
    rw [ht.fresh] at hr
    cases hr

theorem tombstone_of_delete (h : (t.delete i).1 = .ok ()) : Tombstone (t.delete i).2 i := by
  unfold InodeTable.delete at h ⊢
  split at h
  · cases h
  · next hroot =>
    rw [if_neg hroot]
    split at h
    · cases h
    · next record hr => exact ⟨_, Function.update_self .., rfl⟩

/-! ## Keys -/

/-- **A key keeps its number** through every operation that neither renames it nor
deletes the number. -/
theorem byKey_after (ht : Keyed t) (hkey : t.byKey key = some i) (hkeeps : Keeps key i t op) :
    (op.after t).byKey key = some i := by
  cases op with
  | lookup key' => exact hkey
  | call c =>
    cases c with
    | inodeFor key' hardlinkKey =>
      show (t.inodeFor key' hardlinkKey).2.byKey key = some i
      rcases inodeFor_cases ht key' hardlinkKey with
        ⟨j, r, r', -, -, hfree, -, htable⟩ | ⟨r', byHardlink, -, hfree, -, htable⟩ | ⟨-, e, herror⟩
      · rw [htable]
        by_cases hsame : key = key'
        · subst hsame
          rcases hfree with hfree | hfree
          · rw [hkey] at hfree
            cases hfree
          · rw [hkey] at hfree
            exact (Function.update_self ..).trans hfree.symm
        · exact (Function.update_of_ne hsame ..).trans hkey
      · rw [htable]
        have hsame : key ≠ key' := by
          rintro rfl
          rw [hkey] at hfree
          cases hfree
        exact (Function.update_of_ne hsame ..).trans hkey
      · rw [herror]
        exact hkey
    | addAlias inode key' =>
      show (t.addAlias inode key').2.byKey key = some i
      unfold InodeTable.addAlias
      split
      · exact hkey
      · split
        · exact hkey
        · split
          · split
            · exact hkey
            · exact hkey
          · next hfree =>
            have hsame : key ≠ key' := by
              rintro rfl
              rw [hkey] at hfree
              cases hfree
            exact (Function.update_of_ne hsame ..).trans hkey
    | renameAlias old new =>
      show (t.renameAlias old new).2.byKey key = some i
      rcases renameAlias_cases ht old new with
        ⟨j, r, r', -, -, hold, hnew, hok, htable⟩ | ⟨e, herror⟩
      · have hne : key ≠ new := by
          rintro rfl
          rw [hkey] at hnew
          cases hnew
        have hother : key ≠ old := by
          rintro rfl
          obtain ⟨e, herror⟩ := hkeeps.1 new rfl
          rw [hok] at herror
          cases herror
        rw [htable]
        exact (Function.update_of_ne hne ..).trans
          ((Function.update_of_ne hother ..).trans hkey)
      · rw [herror]
        exact hkey
    | delete inode =>
      show (t.delete inode).2.byKey key = some i
      have herror : inode = i → ∃ e, (t.delete inode).1 = .error e := by
        rintro rfl
        exact hkeeps.2 rfl
      unfold InodeTable.delete at herror ⊢
      split
      · exact hkey
      · next hroot =>
        rw [if_neg hroot] at herror
        split
        · exact hkey
        · next record hr =>
          have hne : inode ≠ i := by
            intro heq
            obtain ⟨e, he⟩ := herror heq
            rw [hr] at he
            cases he
          -- the drained keys are those of `inode`, and this one is another's
          have hmem : key ∉ record.aliases := by
            intro hmem
            have hd : record.deleted = false := by
              cases hd : record.deleted with
              | false => rfl
              | true =>
                rw [ht.drained inode record hr hd] at hmem
                exact absurd hmem (Finset.notMem_empty key)
            have hself := (ht.key_self hr key).mpr ⟨hd, hmem⟩
            exact hne (Option.some.inj (hself.symm.trans hkey))
          exact (if_neg hmem).trans hkey
    | forget inode count =>
      show (t.forget inode count).byKey key = some i
      unfold InodeTable.forget
      split
      · exact hkey
      · exact hkey

theorem byKey_exec : ∀ {ops : List Op} {t t' : InodeTable}, Keyed t → t.byKey key = some i →
      histories.AllSteps (Keeps key i) t ops → histories.exec t ops = some t' →
      t'.byKey key = some i
  | [], _, _, _, hkey, _, hexec => by
      cases hexec
      exact hkey
  | op :: ops, t, t', ht, hkey, hkeeps, hexec => by
      obtain ⟨t₁, hstep, hexec⟩ := Option.bind_eq_some_iff.mp hexec
      cases hstep
      exact byKey_exec (keyed_op ht op) (byKey_after ht hkey hkeeps.1) (hkeeps.2 _ rfl) hexec

theorem byKey_of_answer (ht : Keyed t) (hasked : op.asked = some key)
    (hanswer : op.answer t = some i) : (op.after t).byKey key = some i := by
  cases op with
  | lookup key' =>
    cases hasked
    exact hanswer
  | call c =>
    cases c with
    | inodeFor key' hardlinkKey =>
      cases hasked
      show (t.inodeFor key hardlinkKey).2.byKey key = some i
      simp only [Op.answer] at hanswer
      rcases inodeFor_cases ht key hardlinkKey with
        ⟨j, r, r', -, -, -, hok, htable⟩ | ⟨r', byHardlink, -, -, hok, htable⟩ | ⟨-, e, herror⟩
      · rw [hok] at hanswer
        cases hanswer
        rw [htable]
        exact Function.update_self ..
      · rw [hok] at hanswer
        cases hanswer
        rw [htable]
        exact Function.update_self ..
      · rw [herror] at hanswer
        cases hanswer
    | addAlias | renameAlias | delete | forget => cases hasked

theorem answer_of_byKey (ht : Keyed t) (hasked : op.asked = some key) (hkey : t.byKey key = some i)
    : op.answer t = some i := by
  cases op with
  | lookup key' =>
    cases hasked
    exact hkey
  | call c =>
    cases c with
    | inodeFor key' hardlinkKey =>
      cases hasked
      simp only [Op.answer]
      rcases inodeFor_cases ht key hardlinkKey with
        ⟨j, r, r', -, -, hfree, hok, -⟩ | ⟨r', byHardlink, -, hfree, -, -⟩ | ⟨hfree, -⟩
      · rcases hfree with hfree | hfree
        · rw [hkey] at hfree
          cases hfree
        · rw [hok]
          exact hfree.symm.trans hkey
      · rw [hkey] at hfree
        cases hfree
      · rw [hkey] at hfree
        cases hfree
    | addAlias | renameAlias | delete | forget => cases hasked

/-! ## The counter -/

theorem nextInode_after (t : InodeTable) (op : Op) : t.nextInode ≤ (op.after t).nextInode := by
  have hallocate : ∀ key hardlinkKey, t.nextInode ≤ (t.allocate key hardlinkKey).2.nextInode := by
    intro key hardlinkKey
    unfold allocate
    split
    · exact Nat.le_succ _
    · exact le_rfl
  cases op with
  | lookup key => exact le_rfl
  | call c =>
    cases c with
    | inodeFor key hardlinkKey =>
      show t.nextInode ≤ (t.inodeFor key hardlinkKey).2.nextInode
      unfold inodeFor
      repeat' split
      all_goals first | exact le_rfl | exact hallocate key hardlinkKey
    | addAlias inode key =>
      show t.nextInode ≤ (t.addAlias inode key).2.nextInode
      unfold addAlias
      repeat' split
      all_goals exact le_rfl
    | renameAlias old new =>
      show t.nextInode ≤ (t.renameAlias old new).2.nextInode
      unfold renameAlias
      repeat' split
      all_goals exact le_rfl
    | delete inode =>
      show t.nextInode ≤ (t.delete inode).2.nextInode
      unfold delete
      repeat' split
      all_goals exact le_rfl
    | forget inode count =>
      show t.nextInode ≤ (t.forget inode count).nextInode
      unfold forget
      split
      · exact le_rfl
      · exact le_rfl

theorem answer_lt (ht : Keyed t) (hanswer : op.answer t = some i) : i < (op.after t).nextInode := by
  rcases answer_cases ht hanswer with ⟨r, hlive⟩ | ⟨rfl, hnext⟩
  · exact (ht.below_next i r hlive.1).trans_le (nextInode_after t op)
  · rw [hnext]
    exact Nat.lt_succ_self _

/-- A number without a record is answered only when it is taken from the counter. -/
theorem fresh_eq_next (ht : Keyed t) (hanswer : op.answer t = some i) (hfresh : t.byInode i = none)
    : i = t.nextInode := by
  rcases answer_cases ht hanswer with ⟨r, hr, -⟩ | ⟨hnext, -⟩
  · rw [hfresh] at hr
    cases hr
  · exact hnext

/-! ## The history of a table -/

/-- **Inode numbers are never recycled.** Take any history of the table, any operation
`op` of it, and any later point `t'`.

If `op` deleted a number, nothing answers it at `t'`. If `op` got a number for a key, every
request for the key gets it at `t'`, unless the key was renamed or the number deleted in
between. A number answered at `t'` for a node without a record is greater than what `op`
answered. An `inode_for` that fails at `t'` changes nothing. -/
theorem inodes_never_recycled {t t' : InodeTable} {op : Op} {between : List Op}
    (h : histories.Reach (fun _ _ => True) t)
    (hrun : histories.exec (op.after t) between = some t') :
    (∀ i, op = .call (.delete i) → (t.delete i).1 = .ok () →
      ∀ op', Op.answer t' op' ≠ some i) ∧
    (∀ key i, op.asked = some key → op.answer t = some i →
      histories.AllSteps (Keeps key i) (op.after t) between →
      ∀ op', Op.asked op' = some key → op'.answer t' = some i) ∧
    (∀ i j op', op.answer t = some j → Op.answer t' op' = some i → t'.byInode i = none →
      j < i) ∧
    ∀ key hardlinkKey e, (t'.inodeFor key hardlinkKey).1 = .error e →
      (t'.inodeFor key hardlinkKey).2 = t' := by
  have ht := keyed_of_history h
  have hafter := keyed_op ht op
  have hlater := exec_keeps (I := fun u => (op.after t).nextInode ≤ u.nextInode)
    (fun u op _ hle => hle.trans (nextInode_after u op)) hafter le_rfl hrun
  have ht' := hlater.1
  refine ⟨?_, ?_, ?_, ?_⟩
  · rintro i rfl hdelete op'
    have htomb : Tombstone (Op.after t (.call (.delete i))) i := tombstone_of_delete hdelete
    have htomb' := exec_keeps (I := (Tombstone · i)) (fun u op hu h => h.after hu op) hafter htomb
      hrun
    exact htomb'.2.not_answered ht' op'
  · intro key i hasked hanswer hkeeps op' hasked'
    have hkey := byKey_of_answer ht hasked hanswer
    exact answer_of_byKey ht' hasked' (byKey_exec hafter hkey hkeeps hrun)
  · intro i j op' hanswer hanswer' hfresh
    rw [fresh_eq_next ht' hanswer' hfresh]
    exact (answer_lt ht hanswer).trans_le hlater.2
  · intro key hardlinkKey e herror
    rcases inodeFor_cases ht' key hardlinkKey with
      ⟨j, r, r', -, -, -, hok, -⟩ | ⟨r', byHardlink, -, -, hok, -⟩ | ⟨-, e', hsame⟩
    · rw [hok] at herror
      cases herror
    · rw [hok] at herror
      cases herror
    · rw [hsame]

/-- `/a` gets a number and loses it again; asked for once more, it gets a later one. -/
theorem deleted_number_stays_deleted :
    ∃ t t', histories.Reach (fun _ _ => True) t ∧
      histories.exec (Op.after t (.call (.delete 2)))
        [.call (.inodeFor (sampleKey (pathOf "/a")) none)] = some t' ∧
      (t'.inodeFor (sampleKey (pathOf "/a")) none).1 = .ok 3 ∧
      ∀ op', Op.answer t' op' ≠ some 2 := by
  let t := Op.after new (.call (.inodeFor (sampleKey (pathOf "/a")) none))
  have hreach : histories.Reach (fun _ _ => True) t := .step (.init rfl) trivial rfl
  have hdelete : (t.delete 2).1 = .ok () := by decide
  let again : List Op := [.call (.inodeFor (sampleKey (pathOf "/a")) none)]
  obtain ⟨t', hrun⟩ : ∃ t', histories.exec (Op.after t (.call (.delete 2))) again = some t' :=
    ⟨_, rfl⟩
  refine ⟨t, t', hreach, hrun, ?_, (inodes_never_recycled hreach hrun).1 2 rfl hdelete⟩
  cases hrun
  decide

end InodeTable

end TuxStack.Vfs
