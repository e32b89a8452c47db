import TuxStack.Lib.AssocList
import TuxStack.Vfs.Adapter

/-!
# Open handles

`crates/tuxstack-vfs/src/handle.rs`. A handle id packs the slot of a slab with the
generation of the slot; removing a handle moves the generation of its slot on, so an
id that was kept does not name the next handle in the slot.

The slab is an association list without repeated keys. Which vacant key an insertion
gets is the slab's choice and an argument here; `SlabContract` is what is known about
it. `History` adds a log of what was issued, changed and removed, which no operation
reads: the table answers for exactly the ids the log calls live.
-/

namespace TuxStack.Vfs

open Runs Assoc

structure OpenHandle where
  providerHandle : ProviderFileHandle
  resource : DockerFilesystemResource
  path : VirtualPath
  contentGeneration : Nat
  backingStrategy : String
  openedAt : Nat
  lastAccessedAt : Nat
deriving DecidableEq

abbrev OpenHandleId : Type := UInt64

/-! ## Ids -/

def pack (index : Nat) (generation : UInt32) : OpenHandleId :=
  (generation.toUInt64 <<< 32) ||| UInt64.ofNat index

def unpack (id : OpenHandleId) : Nat × UInt32 :=
  (id.toUInt32.toNat, (id >>> 32).toUInt32)

variable {index : Nat}

theorem toNat_pack (h : index < 4294967296) (generation : UInt32) :
    (pack index generation).toNat = generation.toNat * 4294967296 + index := by
  have hg := generation.toNat_lt
  have hindex : index < 2 ^ 32 := h
  have hor : generation.toNat * 4294967296 + index = generation.toNat * 4294967296 ||| index := by
    have h := Nat.shiftLeft_add_eq_or_of_lt hindex generation.toNat
    rwa [Nat.shiftLeft_eq] at h
  have hgeneration :
      generation.toNat * 4294967296 % 18446744073709551616 = generation.toNat * 4294967296 :=
    Nat.mod_eq_of_lt (by omega)
  have hmod : index % 18446744073709551616 = index := Nat.mod_eq_of_lt (by omega)
  simp [pack, UInt64.toNat_or, UInt64.toNat_shiftLeft, Nat.shiftLeft_eq]
  rw [hgeneration, hmod, ← hor]

@[simp] theorem unpack_pack (h : index < 4294967296) (generation : UInt32) :
    unpack (pack index generation) = (index, generation) := by
  have hg := generation.toNat_lt
  have hpack := toNat_pack h generation
  refine Prod.ext ?_ (UInt32.toNat_inj.mp ?_)
  · simp [unpack, hpack]
    omega
  · simp [unpack, UInt64.toNat_shiftRight, hpack, Nat.shiftRight_eq_div_pow]
    omega

theorem pack_unpack (id : OpenHandleId) : pack (unpack id).1 (unpack id).2 = id := by
  have hid := id.toNat_lt
  have hindex : (unpack id).1 < 4294967296 := by
    simp [unpack]
    omega
  refine UInt64.toNat_inj.mp ?_
  rw [toNat_pack hindex]
  simp [unpack, UInt64.toNat_shiftRight, Nat.shiftRight_eq_div_pow]
  omega

/-! ## The table -/

structure OpenHandleTable where
  handles : AList fun _ : Nat => OpenHandle
  generations : List UInt32
  maxHandles : Nat
  idleTimeout : Nat
  limit : 0 < maxHandles ∧ maxHandles ≤ 4294967295

namespace OpenHandleTable

theorem limit_one : 0 < 1 ∧ 1 ≤ 4294967295 := by decide

def new (maxHandles idleTimeout : Nat) : Except VfsError OpenHandleTable :=
  if h : maxHandles = 0 ∨ maxHandles > 4294967295 then
    .error (.invalidInput "handle limit must be in 1..=u32::MAX")
  else
    .ok
      { handles := ∅
        generations := []
        maxHandles := maxHandles
        idleTimeout := idleTimeout
        limit := by omega }

def len (t : OpenHandleTable) : Nat := t.handles.entries.length

/-- `Vec::resize` to one more than `index`, when the slot is new. -/
def coverSlot (generations : List UInt32) (index : Nat) : List UInt32 :=
  if generations.length ≤ index then
    generations ++ List.replicate (index + 1 - generations.length) 0
  else generations

/-- `insert` at the time `now`; `index` is the key the slab inserts at. -/
def insert (t : OpenHandleTable) (handle : OpenHandle) (now index : Nat) :
    Except VfsError OpenHandleId × OpenHandleTable :=
  if t.maxHandles ≤ t.len then (.error .tooManyHandles, t)
  else
    let handle := { handle with openedAt := now, lastAccessedAt := now }
    let generations := coverSlot t.generations index
    (.ok (pack index (generations.getD index 0)),
      { t with
        handles := t.handles.insert index handle
        generations := generations })

/-- `get_mut`; `write` is what the caller does with the reference. -/
def getMut (t : OpenHandleTable) (id : OpenHandleId) (now : Nat)
    (write : OpenHandle → OpenHandle) : Except VfsError OpenHandle × OpenHandleTable :=
  let index := (unpack id).1
  if t.generations[index]? ≠ some (unpack id).2 then (.error .badHandle, t)
  else
    match t.handles.lookup index with
    | none => (.error .badHandle, t)
    | some handle =>
      let handle := { handle with lastAccessedAt := now }
      (.ok handle, { t with handles := t.handles.insert index (write handle) })

def remove (t : OpenHandleTable) (id : OpenHandleId) :
    Except VfsError OpenHandle × OpenHandleTable :=
  let index := (unpack id).1
  if t.generations[index]? ≠ some (unpack id).2 then (.error .badHandle, t)
  else
    match t.handles.lookup index with
    | none => (.error .badHandle, t)
    | some handle =>
      (.ok handle,
        { t with
          handles := t.handles.erase index
          generations := t.generations.modify index (· + 1) })

/-- The handle an id names: the check `get_mut` and `remove` share. -/
def find? (t : OpenHandleTable) (id : OpenHandleId) : Option OpenHandle :=
  if t.generations[(unpack id).1]? = some (unpack id).2 then t.handles.lookup (unpack id).1
  else none

variable {t : OpenHandleTable} {id : OpenHandleId} {handle : OpenHandle}

theorem find_eq (h : t.find? id = some handle) :
    t.generations[(unpack id).1]? = some (unpack id).2 ∧
      t.handles.lookup (unpack id).1 = some handle := by
  unfold find? at h
  split at h
  · next hg => exact ⟨hg, h⟩
  · cases h

theorem getMut_of_find_none (h : t.find? id = none) (now : Nat) (write : OpenHandle → OpenHandle) :
    t.getMut id now write = (.error .badHandle, t) := by
  unfold getMut
  unfold find? at h
  split at h
  · next hgeneration => simp [hgeneration, h]
  · next hgeneration => simp [hgeneration]

theorem getMut_of_find_some (h : t.find? id = some handle) (now : Nat)
    (write : OpenHandle → OpenHandle) : t.getMut id now write =
      (.ok { handle with lastAccessedAt := now },
        { t with
          handles :=
            t.handles.insert (unpack id).1 (write { handle with lastAccessedAt := now }) }) := by
  unfold getMut
  unfold find? at h
  split at h
  · next hgeneration => simp [hgeneration, h]
  · cases h

theorem remove_of_find_none (h : t.find? id = none) : t.remove id = (.error .badHandle, t) := by
  unfold remove
  unfold find? at h
  split at h
  · next hgeneration => simp [hgeneration, h]
  · next hgeneration => simp [hgeneration]

theorem remove_of_find_some (h : t.find? id = some handle) : t.remove id =
      (.ok handle,
        { t with
          handles := t.handles.erase (unpack id).1
          generations := t.generations.modify (unpack id).1 (· + 1) }) := by
  unfold remove
  unfold find? at h
  split at h
  · next hgeneration => simp [hgeneration, h]
  · cases h

theorem insert_of_full (h : t.maxHandles ≤ t.len) (handle : OpenHandle) (now index : Nat) :
    t.insert handle now index = (.error .tooManyHandles, t) :=
  if_pos h

theorem insert_of_room (h : t.len < t.maxHandles) (handle : OpenHandle) (now index : Nat) :
    t.insert handle now index =
      (.ok (pack index ((coverSlot t.generations index).getD index 0)),
        { t with
          handles :=
            t.handles.insert index { handle with openedAt := now, lastAccessedAt := now }
          generations := coverSlot t.generations index }) :=
  if_neg (Nat.not_le.mpr h)

theorem length_coverSlot (generations : List UInt32) (index : Nat) :
    (coverSlot generations index).length = max generations.length (index + 1) := by
  unfold coverSlot
  split
  · simp
    omega
  · omega

variable {generations : List UInt32} {i index : Nat}

theorem coverSlot_of_lt (h : i < generations.length) :
    (coverSlot generations index)[i]? = generations[i]? := by
  unfold coverSlot
  split
  · exact List.getElem?_append_left h
  · rfl

theorem coverSlot_of_le {g : UInt32} (h : generations.length ≤ i)
    (hg : (coverSlot generations index)[i]? = some g) : g = 0 := by
  unfold coverSlot at hg
  split at hg
  · rw [List.getElem?_append_right h] at hg
    exact List.eq_of_mem_replicate (List.mem_of_getElem? hg)
  · rw [List.getElem?_eq_none h] at hg
    cases hg

theorem coverSlot_self (generations : List UInt32) (index : Nat) :
    (coverSlot generations index)[index]? =
      some ((coverSlot generations index).getD index 0) := by
  have hlt : index < (coverSlot generations index).length := by
    rw [length_coverSlot]
    omega
  rw [List.getD_eq_getElem?_getD, List.getElem?_eq_getElem hlt]
  rfl

end OpenHandleTable

/-! ## Histories -/

/-- What an operation that succeeded did; `changed` is a `get_mut`. -/
inductive HandleEvent where
  | inserted (id : OpenHandleId) (handle : OpenHandle)
  | changed (id : OpenHandleId) (handle : OpenHandle)
  | removed (id : OpenHandleId)

/-- The table, what was done to it (newest first), and the greatest number of handles
that were live at once. -/
structure History where
  table : OpenHandleTable
  log : List HandleEvent
  peak : Nat

inductive HandleCall where
  | insert (handle : OpenHandle) (now index : Nat)
  | getMut (id : OpenHandleId) (now : Nat) (write : OpenHandle → OpenHandle)
  | remove (id : OpenHandleId)

namespace History

def stored : List HandleEvent → OpenHandleId → Option OpenHandle
  | [], _ => none
  | .inserted id' handle :: log, id => if id' = id then some handle else stored log id
  | .changed id' handle :: log, id =>
    if id' = id then (stored log id).map fun _ => handle else stored log id
  | .removed id' :: log, id => if id' = id then none else stored log id

/-- `id` was returned by an insertion. -/
def Issued (log : List HandleEvent) (id : OpenHandleId) : Prop :=
  ∃ handle, .inserted id handle ∈ log

/-- `id` was returned by an insertion and has not been removed since. -/
def Live (log : List HandleEvent) (id : OpenHandleId) : Prop :=
  ∃ newer handle older, log = newer ++ .inserted id handle :: older ∧ .removed id ∉ newer

def removals (s : History) : Nat :=
  s.log.countP fun
    | .removed _ => true
    | _ => false

def after (s : History) : HandleCall → History
  | .insert handle now index =>
    match s.table.insert handle now index with
    | (.error _, table) => { s with table := table }
    | (.ok id, table) =>
      { table := table
        log :=
          .inserted id { handle with openedAt := now, lastAccessedAt := now } :: s.log
        peak := max s.peak table.len }
  | .getMut id now write =>
    match s.table.getMut id now write with
    | (.error _, table) => { s with table := table }
    | (.ok handle, table) =>
      { s with
        table := table
        log := .changed id (write handle) :: s.log }
  | .remove id =>
    match s.table.remove id with
    | (.error _, table) => { s with table := table }
    | (.ok _, table) =>
      { s with
        table := table
        log := .removed id :: s.log }

def machine : Machine History HandleCall where
  init s := ∃ maxHandles idleTimeout, OpenHandleTable.new maxHandles idleTimeout = .ok s.table ∧
    s.log = [] ∧ s.peak = 0
  step s call := some (s.after call)

/-- What is known about the slab: an insertion gets a vacant key, below the greatest
number of entries that were live at once. -/
def SlabContract (s : History) : HandleCall → Prop
  | .insert _ _ index =>
    s.table.len < s.table.maxHandles →
      s.table.handles.lookup index = none ∧ index < max s.peak (s.table.len + 1)
  | _ => True

/-! ## The log -/

theorem live_of_stored : ∀ {log : List HandleEvent} {id : OpenHandleId} {handle : OpenHandle},
    stored log id = some handle → Live log id
  | [], _, _, h => by cases h
  | .inserted id' stored' :: log, id, handle, h => by
      unfold stored at h
      split at h
      · next hid =>
        subst hid
        exact ⟨[], stored', log, rfl, List.not_mem_nil⟩
      · obtain ⟨newer, first, older, hlog, hnot⟩ := live_of_stored h
        exact ⟨.inserted id' stored' :: newer, first, older, by rw [hlog]; rfl, by simp [hnot]⟩
  | .changed id' stored' :: log, id, handle, h => by
      have hold : ∃ handle, stored log id = some handle := by
        unfold stored at h
        split at h
        · obtain ⟨before, hbefore, -⟩ := Option.map_eq_some_iff.mp h
          exact ⟨before, hbefore⟩
        · exact ⟨handle, h⟩
      obtain ⟨before, hbefore⟩ := hold
      obtain ⟨newer, first, older, hlog, hnot⟩ := live_of_stored hbefore
      exact ⟨.changed id' stored' :: newer, first, older, by rw [hlog]; rfl, by simp [hnot]⟩
  | .removed id' :: log, id, handle, h => by
      unfold stored at h
      split at h
      · cases h
      · next hid =>
        obtain ⟨newer, first, older, hlog, hnot⟩ := live_of_stored h
        refine ⟨.removed id' :: newer, first, older, by rw [hlog]; rfl, ?_⟩
        simp [hnot, Ne.symm hid]

variable {s : History} {id : OpenHandleId}

theorem stored_of_not_removed {handle : OpenHandle} {older : List HandleEvent} :
    ∀ {newer : List HandleEvent}, .removed id ∉ newer →
      ∃ current, stored (newer ++ .inserted id handle :: older) id = some current
  | [], _ => ⟨handle, if_pos rfl⟩
  | e :: newer, hnot => by
      obtain ⟨current, hcurrent⟩ :
          ∃ current, stored (newer ++ .inserted id handle :: older) id = some current :=
        stored_of_not_removed fun h => hnot (List.mem_cons_of_mem _ h)
      cases e with
      | inserted id' h =>
        by_cases hid : id' = id
        · exact ⟨h, by simp [stored, hid]⟩
        · exact ⟨current, by simp [stored, hid, hcurrent]⟩
      | changed id' h =>
        by_cases hid : id' = id
        · exact ⟨h, by simp [stored, hid, hcurrent]⟩
        · exact ⟨current, by simp [stored, hid, hcurrent]⟩
      | removed id' =>
        have hid : id' ≠ id := by
          rintro rfl
          exact hnot List.mem_cons_self
        exact ⟨current, by simp [stored, hid, hcurrent]⟩

variable {call : HandleCall} {index : Nat} {log : List HandleEvent} {old : OpenHandle}

theorem live_iff : Live log id ↔ ∃ handle, stored log id = some handle := by
  constructor
  · rintro ⟨newer, handle, older, rfl, hnot⟩
    exact stored_of_not_removed hnot
  · rintro ⟨handle, h⟩
    exact live_of_stored h

/-! ## Sizes -/

structure Sized (s : History) : Prop where
  len_le : s.table.len ≤ s.peak
  slots_le : s.table.generations.length ≤ s.peak
  peak_le : s.peak ≤ s.table.maxHandles

theorem len_eq_values (t : OpenHandleTable) : t.len = (values t.handles).length := by
  simp [OpenHandleTable.len, values]

theorem Sized.after (h : s.Sized) (hslab : SlabContract s call) : (s.after call).Sized := by
  obtain ⟨hlen, hslots, hpeak⟩ := h
  rw [len_eq_values] at hlen
  cases call with
  | insert handle now index =>
    rcases Nat.lt_or_ge s.table.len s.table.maxHandles with hroom | hfull
    · obtain ⟨hvacant, hindex⟩ := hslab hroom
      rw [len_eq_values] at hroom hindex
      simp only [History.after, OpenHandleTable.insert_of_room (len_eq_values s.table ▸ hroom)]
      constructor
      · exact le_max_right _ _
      · rw [OpenHandleTable.length_coverSlot, len_eq_values, length_insert hvacant]
        show _ ≤ max s.peak ((values s.table.handles).length + 1)
        omega
      · rw [len_eq_values, length_insert hvacant]
        exact max_le hpeak hroom
    · simp only [History.after, OpenHandleTable.insert_of_full hfull]
      exact ⟨len_eq_values s.table ▸ hlen, hslots, hpeak⟩
  | getMut id now write =>
    cases hfind : s.table.find? id with
    | none =>
      simp only [History.after, OpenHandleTable.getMut_of_find_none hfind]
      exact ⟨len_eq_values s.table ▸ hlen, hslots, hpeak⟩
    | some handle =>
      simp only [History.after, OpenHandleTable.getMut_of_find_some hfind]
      refine ⟨?_, hslots, hpeak⟩
      rw [len_eq_values, length_overwrite (OpenHandleTable.find_eq hfind).2]
      exact hlen
  | remove id =>
    cases hfind : s.table.find? id with
    | none =>
      simp only [History.after, OpenHandleTable.remove_of_find_none hfind]
      exact ⟨len_eq_values s.table ▸ hlen, hslots, hpeak⟩
    | some handle =>
      have herase := length_erase (OpenHandleTable.find_eq hfind).2
      simp only [History.after, OpenHandleTable.remove_of_find_some hfind]
      refine ⟨?_, ?_, hpeak⟩
      · rw [len_eq_values]
        exact (Nat.le_of_succ_le (Nat.le_of_eq herase)).trans hlen
      · rw [List.length_modify]
        exact hslots

theorem sized_of_reach (h : machine.Reach SlabContract s) : s.Sized := by
  refine h.invariant ?_ ?_
  · rintro s ⟨maxHandles, idleTimeout, hnew, -, hpeak⟩
    unfold OpenHandleTable.new at hnew
    split at hnew
    · cases hnew
    · have htable := Except.ok.inj hnew
      constructor
      · simp [← htable, OpenHandleTable.len]
      · simp [← htable]
      · simp [hpeak]
  · rintro s call s' hs hslab hstep
    cases hstep
    exact hs.after hslab

/-! ## The table and the log agree -/

/-- Holds while fewer than `2^32` handles have been removed, so that no generation has
wrapped. -/
structure Sound (s : History) : Prop where
  found : ∀ id, s.table.find? id = stored s.log id
  issued_le : ∀ id, Issued s.log id →
    ∃ g, s.table.generations[(unpack id).1]? = some g ∧ (unpack id).2 ≤ g
  vacant : ∀ id, s.table.generations[(unpack id).1]? = some (unpack id).2 →
    s.table.handles.lookup (unpack id).1 = none → ¬ Issued s.log id
  covered : ∀ i : Nat, s.table.generations.length ≤ i → s.table.handles.lookup i = none
  bound : ∀ (i : Nat) (g : UInt32), s.table.generations[i]? = some g → g.toNat ≤ s.removals

/-- **An insertion returns a new id**: not one that was ever returned before. -/
theorem Sound.fresh (h : s.Sound) (hindex : index < 4294967296)
    (hvacant : s.table.handles.lookup index = none) : ¬ Issued s.log (pack index
      ((OpenHandleTable.coverSlot s.table.generations index).getD index 0)) := by
  have hself := OpenHandleTable.coverSlot_self s.table.generations index
  rcases Nat.lt_or_ge index s.table.generations.length with hlt | hge
  · rw [OpenHandleTable.coverSlot_of_lt hlt] at hself
    apply h.vacant
    · rw [unpack_pack hindex]
      exact hself
    · rw [unpack_pack hindex]
      exact hvacant
  · intro hissued
    obtain ⟨g, hg, -⟩ := h.issued_le _ hissued
    rw [unpack_pack hindex, List.getElem?_eq_none hge] at hg
    cases hg

theorem issued_cons {e : HandleEvent} (h : Issued (e :: log) id) :
    (∃ handle, e = .inserted id handle) ∨ Issued log id := by
  obtain ⟨handle, hmem⟩ := h
  rcases List.mem_cons.mp hmem with h | h
  · exact .inl ⟨handle, h.symm⟩
  · exact .inr ⟨handle, h⟩

theorem eq_of_slot {t : OpenHandleTable} {id' : OpenHandleId}
    (h : t.generations[(unpack id).1]? = some (unpack id).2)
    (h' : t.generations[(unpack id').1]? = some (unpack id').2)
    (hslot : (unpack id').1 = (unpack id).1) : id' = id := by
  have hgeneration : (unpack id').2 = (unpack id).2 := by
    rw [hslot, h] at h'
    exact (Option.some.inj h').symm
  rw [← pack_unpack id, ← pack_unpack id', hslot, hgeneration]

theorem Sound.inserted (h : s.Sound) {handle : OpenHandle} {limit : Nat}
    (hindex : index < 4294967296) (hvacant : s.table.handles.lookup index = none) : Sound
      { table :=
          { s.table with
            handles := s.table.handles.insert index handle
            generations := OpenHandleTable.coverSlot s.table.generations index }
        log :=
          .inserted (pack index
            ((OpenHandleTable.coverSlot s.table.generations index).getD index 0)) handle :: s.log
        peak := limit } := by
  have hself := OpenHandleTable.coverSlot_self s.table.generations index
  have hfresh := h.fresh hindex hvacant
  generalize (OpenHandleTable.coverSlot s.table.generations index).getD index 0 =
    g at hself hfresh ⊢
  have hold : ∀ id g', s.table.generations[(unpack id).1]? = some g' →
      (OpenHandleTable.coverSlot s.table.generations index)[(unpack id).1]? = some g' := by
    intro id g' hg
    rw [OpenHandleTable.coverSlot_of_lt (List.getElem?_eq_some_iff.mp hg).1, hg]
  constructor
  case found =>
    intro id
    by_cases hid : pack index g = id
    · subst hid
      simp only [OpenHandleTable.find?, stored, if_true]
      rw [unpack_pack hindex, hself, if_pos rfl]
      exact AList.lookup_insert _
    · have hstored := h.found id
      simp only [stored, if_neg hid]
      rw [← hstored]
      by_cases hslot : (unpack id).1 = index
      · -- the id is an earlier one of the slot that was vacant
        have hne : some g ≠ some (unpack id).2 := by
          intro hg
          apply hid
          rw [Option.some.inj hg, ← hslot, pack_unpack]
        simp only [OpenHandleTable.find?]
        rw [hslot, hself, if_neg hne, hvacant]
        exact (ite_self _).symm
      · simp only [OpenHandleTable.find?, AList.lookup_insert_ne hslot]
        rcases Nat.lt_or_ge (unpack id).1 s.table.generations.length with hlt | hge
        · rw [OpenHandleTable.coverSlot_of_lt hlt]
        · rw [h.covered _ hge, ite_self, ite_self]
  case issued_le =>
    intro id hissued
    rcases issued_cons hissued with ⟨handle', heq⟩ | hissued
    · cases heq
      rw [unpack_pack hindex]
      exact ⟨g, hself, UInt32.le_refl g⟩
    · obtain ⟨g', hg', hle⟩ := h.issued_le id hissued
      exact ⟨g', hold id g' hg', hle⟩
  case vacant =>
    intro id hg hlookup hissued
    have hslot : (unpack id).1 ≠ index := by
      intro heq
      rw [heq, AList.lookup_insert] at hlookup
      cases hlookup
    rcases issued_cons hissued with ⟨handle', heq⟩ | hissued
    · cases heq
      rw [unpack_pack hindex] at hslot
      exact hslot rfl
    · obtain ⟨g', hg', -⟩ := h.issued_le id hissued
      have hsame : some g' = some (unpack id).2 := (hold id g' hg').symm.trans hg
      rw [AList.lookup_insert_ne hslot] at hlookup
      exact h.vacant id (hg'.trans hsame) hlookup hissued
  case covered =>
    intro i hi
    rw [OpenHandleTable.length_coverSlot] at hi
    have hslot : i ≠ index := by omega
    rw [AList.lookup_insert_ne hslot]
    exact h.covered i (by omega)
  case bound =>
    intro i g' hg'
    show g'.toNat ≤ s.removals
    rcases Nat.lt_or_ge i s.table.generations.length with hlt | hge
    · rw [OpenHandleTable.coverSlot_of_lt hlt] at hg'
      exact h.bound i g' hg'
    · rw [OpenHandleTable.coverSlot_of_le hge hg']
      exact Nat.zero_le _

theorem Sound.changed (h : s.Sound) (hfind : s.table.find? id = some old) (handle : OpenHandle) :
    Sound
      { s with
        table := { s.table with handles := s.table.handles.insert (unpack id).1 handle }
        log := .changed id handle :: s.log } := by
  obtain ⟨hgeneration, hlookup⟩ := OpenHandleTable.find_eq hfind
  have hissued : ∀ id', Issued (.changed id handle :: s.log) id' → Issued s.log id' := by
    intro id' hissued
    rcases issued_cons hissued with ⟨handle', heq⟩ | hissued
    · cases heq
    · exact hissued
  constructor
  case found =>
    intro id'
    by_cases hid : id = id'
    · subst hid
      simp only [OpenHandleTable.find?, stored, if_true]
      rw [if_pos hgeneration, ← h.found, hfind]
      exact AList.lookup_insert _
    · simp only [OpenHandleTable.find?, stored, if_neg hid]
      rw [← h.found]
      by_cases hslot : (unpack id').1 = (unpack id).1
      · have hstale : s.table.generations[(unpack id').1]? ≠ some (unpack id').2 := by
          intro hg
          exact hid (eq_of_slot hgeneration hg hslot).symm
        simp only [OpenHandleTable.find?]
        rw [if_neg hstale, if_neg hstale]
      · simp only [OpenHandleTable.find?, AList.lookup_insert_ne hslot]
  case issued_le =>
    intro id' hissued'
    exact h.issued_le id' (hissued id' hissued')
  case vacant =>
    intro id' hg hvacant hissued'
    have hslot : (unpack id').1 ≠ (unpack id).1 := by
      intro heq
      rw [heq, AList.lookup_insert] at hvacant
      cases hvacant
    rw [AList.lookup_insert_ne hslot] at hvacant
    exact h.vacant id' hg hvacant (hissued id' hissued')
  case covered =>
    intro i hi
    have hslot : i ≠ (unpack id).1 := by
      rintro rfl
      exact Nat.not_le.mpr (List.getElem?_eq_some_iff.mp hgeneration).1 hi
    rw [AList.lookup_insert_ne hslot]
    exact h.covered i hi
  case bound =>
    intro i g hg
    exact h.bound i g hg

theorem Sound.removed (h : s.Sound) (hremovals : s.removals + 1 < 4294967296)
    (hfind : s.table.find? id = some old) : Sound
      { s with
        table :=
          { s.table with
            handles := s.table.handles.erase (unpack id).1
            generations := s.table.generations.modify (unpack id).1 (· + 1) }
        log := .removed id :: s.log } := by
  obtain ⟨hgeneration, hlookup⟩ := OpenHandleTable.find_eq hfind
  have hbound := h.bound _ _ hgeneration
  have hnext : ((unpack id).2 + 1).toNat = (unpack id).2.toNat + 1 := by
    rw [UInt32.toNat_add, UInt32.toNat_one]
    exact Nat.mod_eq_of_lt (by omega)
  have hself : (s.table.generations.modify (unpack id).1 (· + 1))[(unpack id).1]? =
      some ((unpack id).2 + 1) := by
    rw [List.getElem?_modify, hgeneration]
    simp
  have hother : ∀ i, i ≠ (unpack id).1 →
      (s.table.generations.modify (unpack id).1 (· + 1))[i]? = s.table.generations[i]? := by
    intro i hi
    rw [List.getElem?_modify]
    simp [Ne.symm hi]
  have hissued : ∀ id', Issued (.removed id :: s.log) id' → Issued s.log id' := by
    intro id' hissued
    rcases issued_cons hissued with ⟨handle', heq⟩ | hissued
    · cases heq
    · exact hissued
  constructor
  case found =>
    intro id'
    by_cases hid : id = id'
    · subst hid
      simp only [OpenHandleTable.find?, stored, if_true]
      -- the slot has moved on by one generation, so the id is stale
      have hne : some ((unpack id).2 + 1) ≠ some (unpack id).2 := by
        intro heq
        have := congrArg UInt32.toNat (Option.some.inj heq)
        omega
      rw [hself, if_neg hne]
    · simp only [OpenHandleTable.find?, stored, if_neg hid]
      rw [← h.found]
      by_cases hslot : (unpack id').1 = (unpack id).1
      · have hstale : s.table.generations[(unpack id').1]? ≠ some (unpack id').2 := by
          intro hg
          exact hid (eq_of_slot hgeneration hg hslot).symm
        simp only [OpenHandleTable.find?]
        rw [if_neg hstale, hslot, AList.lookup_erase, ite_self]
      · simp only [OpenHandleTable.find?, AList.lookup_erase_ne hslot, hother _ hslot]
  case issued_le =>
    intro id' hissued'
    obtain ⟨g, hg, hle⟩ := h.issued_le id' (hissued id' hissued')
    by_cases hslot : (unpack id').1 = (unpack id).1
    · refine ⟨(unpack id).2 + 1, hslot ▸ hself, ?_⟩
      rw [hslot, hgeneration] at hg
      cases hg
      rw [UInt32.le_iff_toNat_le] at hle ⊢
      omega
    · exact ⟨g, (hother _ hslot).trans hg, hle⟩
  case vacant =>
    intro id' hg hvacant hissued'
    obtain ⟨g, hg', hle⟩ := h.issued_le id' (hissued id' hissued')
    by_cases hslot : (unpack id').1 = (unpack id).1
    · -- an issued id is at most the generation that was just left
      rw [hslot, hself] at hg
      rw [hslot, hgeneration] at hg'
      cases hg'
      rw [UInt32.le_iff_toNat_le] at hle
      have := congrArg UInt32.toNat (Option.some.inj hg)
      omega
    · rw [AList.lookup_erase_ne hslot] at hvacant
      exact h.vacant id' ((hother _ hslot).symm.trans hg) hvacant (hissued id' hissued')
  case covered =>
    intro i hi
    rw [List.length_modify] at hi
    by_cases hslot : i = (unpack id).1
    · rw [hslot, AList.lookup_erase]
    · rw [AList.lookup_erase_ne hslot]
      exact h.covered i hi
  case bound =>
    intro i g hg
    have hcount : removals
        { table := s.table, log := .removed id :: s.log, peak := s.peak } = s.removals + 1 :=
      List.countP_cons_of_pos rfl
    refine le_of_le_of_eq ?_ hcount.symm
    by_cases hslot : i = (unpack id).1
    · rw [hslot, hself] at hg
      cases hg
      omega
    · rw [hother i hslot] at hg
      exact (h.bound i g hg).trans (Nat.le_succ _)

/-! ## Runs -/

theorem removals_le_after (s : History) (call : HandleCall) :
    s.removals ≤ (s.after call).removals := by
  have hcons : ∀ (e : HandleEvent) (t : OpenHandleTable) (peak : Nat),
      s.removals ≤ removals ⟨t, e :: s.log, peak⟩ := fun e t peak =>
    List.Sublist.countP_le (List.sublist_cons_self e s.log)
  cases call with
  | insert handle now index | getMut id now write | remove id =>
    simp only [History.after]
    split
    · exact le_rfl
    · exact hcons ..

theorem Sound.after (h : s.Sound) (hsized : s.Sized) (hslab : SlabContract s call)
    (hremovals : (s.after call).removals < 4294967296) : (s.after call).Sound := by
  cases call with
  | insert handle now index =>
    rcases Nat.lt_or_ge s.table.len s.table.maxHandles with hroom | hfull
    · obtain ⟨hvacant, hindex⟩ := hslab hroom
      have hlimit := s.table.limit.2
      have hpeak := hsized.peak_le
      simp only [History.after, OpenHandleTable.insert_of_room hroom]
      exact h.inserted (by omega) hvacant
    · simp only [History.after, OpenHandleTable.insert_of_full hfull]
      exact h
  | getMut id now write =>
    cases hfind : s.table.find? id with
    | none =>
      simp only [History.after, OpenHandleTable.getMut_of_find_none hfind]
      exact h
    | some handle =>
      simp only [History.after, OpenHandleTable.getMut_of_find_some hfind]
      exact h.changed hfind _
  | remove id =>
    cases hfind : s.table.find? id with
    | none =>
      simp only [History.after, OpenHandleTable.remove_of_find_none hfind]
      exact h
    | some handle =>
      simp only [History.after, OpenHandleTable.remove_of_find_some hfind] at hremovals ⊢
      have hcount : removals
          { table := s.table, log := .removed id :: s.log, peak := s.peak } =
            s.removals + 1 := List.countP_cons_of_pos rfl
      exact h.removed (lt_of_eq_of_lt hcount.symm hremovals) hfind

theorem sound_of_reach (h : machine.Reach SlabContract s) : s.removals < 4294967296 → s.Sound := by
  refine (h.invariant (I := fun s => s.Sized ∧ (s.removals < 4294967296 → s.Sound)) ?_ ?_).2
  · rintro s ⟨maxHandles, idleTimeout, hnew, hlog, hpeak⟩
    refine ⟨sized_of_reach (.init ⟨maxHandles, idleTimeout, hnew, hlog, hpeak⟩), fun _ => ?_⟩
    unfold OpenHandleTable.new at hnew
    split at hnew
    · cases hnew
    · have htable := Except.ok.inj hnew
      constructor <;> simp [← htable, hlog, OpenHandleTable.find?, stored, Issued]
  · rintro s call s' ⟨hsized, hsound⟩ hslab hstep
    cases hstep
    exact ⟨hsized.after hslab, fun hremovals =>
      (hsound (lt_of_le_of_lt (removals_le_after s call) hremovals)).after hsized hslab hremovals⟩

/-- **An id names its insertion and nothing else.** In every run with fewer than `2^32`
removals, `get_mut` and `remove` succeed for exactly the ids that were returned by an
insertion and have not been removed since, and act on the handle stored by it. No id is
returned twice, the limit holds, and a refused insertion changes nothing. -/
theorem ids_name_their_insertion {s : History} (h : machine.Reach SlabContract s)
    (hremovals : s.removals < 2 ^ 32) :
    (∀ id now write,
      ((∃ handle, (s.table.getMut id now write).1 = .ok handle) ↔ Live s.log id) ∧
      ∀ handle, (s.table.getMut id now write).1 = .ok handle → ∃ old,
        stored s.log id = some old ∧ handle = { old with lastAccessedAt := now }) ∧
    (∀ id,
      ((∃ handle, (s.table.remove id).1 = .ok handle) ↔ Live s.log id) ∧
      ∀ handle, (s.table.remove id).1 = .ok handle → stored s.log id = some handle) ∧
    s.table.len ≤ s.table.maxHandles ∧
    ∀ handle now index,
      (∀ id, (s.table.insert handle now index).1 = .ok id →
        SlabContract s (.insert handle now index) → ¬ Issued s.log id) ∧
      ∀ e, (s.table.insert handle now index).1 = .error e →
        (s.table.insert handle now index).2 = s.table := by
  have hsound := sound_of_reach h hremovals
  have hsized := sized_of_reach h
  refine ⟨?_, ?_, hsized.len_le.trans hsized.peak_le, ?_⟩
  · intro id now write
    cases hfind : s.table.find? id with
    | none =>
      have hdead : ¬ Live s.log id := by
        rw [live_iff, ← hsound.found, hfind]
        simp
      rw [OpenHandleTable.getMut_of_find_none hfind]
      simp [hdead]
    | some old =>
      have hstored : stored s.log id = some old := by rw [← hsound.found, hfind]
      have hlive : Live s.log id := live_of_stored hstored
      rw [OpenHandleTable.getMut_of_find_some hfind]
      simp [hlive, hstored]
  · intro id
    cases hfind : s.table.find? id with
    | none =>
      have hdead : ¬ Live s.log id := by
        rw [live_iff, ← hsound.found, hfind]
        simp
      rw [OpenHandleTable.remove_of_find_none hfind]
      simp [hdead]
    | some old =>
      have hstored : stored s.log id = some old := by rw [← hsound.found, hfind]
      have hlive : Live s.log id := live_of_stored hstored
      rw [OpenHandleTable.remove_of_find_some hfind]
      simp [hlive, hstored]
  · intro handle now index
    rcases Nat.lt_or_ge s.table.len s.table.maxHandles with hroom | hfull
    · rw [OpenHandleTable.insert_of_room hroom]
      refine ⟨?_, by simp⟩
      rintro id hid hslab
      obtain ⟨hvacant, hindex⟩ := hslab hroom
      have hlimit := s.table.limit.2
      have hpeak := hsized.peak_le
      cases hid
      -- the slab's index is below the peak, hence within 32 bits
      exact hsound.fresh (by omega) hvacant
    · rw [OpenHandleTable.insert_of_full hfull]
      simp

instance (s : History) : ∀ call, Decidable (SlabContract s call)
  | .insert _ _ index => inferInstanceAs (Decidable (s.table.len < s.table.maxHandles →
      s.table.handles.lookup index = none ∧ index < max s.peak (s.table.len + 1)))
  | .getMut .. => inferInstanceAs (Decidable True)
  | .remove _ => inferInstanceAs (Decidable True)

/-- A handle as the adapter makes it. -/
def sampleHandle (contentGeneration : Nat) : OpenHandle where
  providerHandle := ⟨1, VirtualPath.root, contentGeneration⟩
  resource := .container "id"
  path := VirtualPath.root
  contentGeneration := contentGeneration
  backingStrategy := "provider"
  openedAt := 0
  lastAccessedAt := 0

def single : History where
  table := ⟨∅, [], 1, 0, OpenHandleTable.limit_one⟩
  log := []
  peak := 0

/-- The slot of a removed handle is used again, under another id. -/
theorem slot_reuse_gets_new_id : ∃ s, machine.Reach SlabContract s ∧
    (∃ handle, (s.table.remove 4294967296).1 = .ok handle) ∧
    ¬ ∃ handle, (s.table.remove 0).1 = .ok handle := by
  let calls : List HandleCall :=
    [.insert (sampleHandle 2) 5 0, .remove 0, .insert (sampleHandle 3) 6 0]
  have hrun : ∃ s ∈ machine.exec single calls, s.removals < 2 ^ 32 ∧
      stored s.log 0 = none ∧ stored s.log 4294967296 ≠ none := by
    decide +kernel
  obtain ⟨s, hs, hremovals, hfirst, hsecond⟩ := hrun
  have hreach : machine.Reach SlabContract s :=
    Machine.reach_of_exec (.init ⟨1, 0, rfl, rfl, rfl⟩)
      (show machine.AllSteps SlabContract single calls by decide +kernel) hs
  obtain ⟨-, hremove, -⟩ := ids_name_their_insertion hreach hremovals
  refine ⟨s, hreach, ?_, ?_⟩
  · apply (hremove 4294967296).1.mpr
    exact live_iff.mpr (Option.ne_none_iff_exists'.mp hsecond)
  · rw [(hremove 0).1, live_iff, hfirst]
    simp

end History

end TuxStack.Vfs
