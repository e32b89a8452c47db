import TuxStack.Cache.Persistent

/-!
# Removals and the write-behind queue

A `put` reaches the database when the flusher gets to it, a removal at once. So a removal
only takes away what has been flushed: a write for the same row that is still in the
channel or in the batch comes after it and brings the row back.

Along a run the database stands for a snapshot that changes with the flushes and the
removals alone (`Tracks.step`). `removal_wins_iff` reads off when a removal is final:
exactly when no write for the row is pending.
-/

namespace TuxStack.Cache

open Runs Sql
open TableCall (localEndpoint)

/-- A cache opened on a database of its schema, and its threads. -/
def persistentCache : Machine PersistentCache CacheAction where
  init s := ∃ db m, Represents db m ∧ s = .opened db
  step := PersistentCache.step

def HasRow (db : Database) (table endpoint key : String) : Prop :=
  ∃ keyColumn t row, keyColumnFor table = some keyColumn ∧ db table = some t ∧
    row ∈ t.rows ∧ row "endpoint_key" = .text endpoint ∧ row keyColumn = .text key

def CacheCall.Removes (table : String) (endpoint : EndpointKey) (key : String) :
    CacheCall → Prop
  | .removeKey t e k => t = table ∧ e = endpoint ∧ k = key
  | .clearEndpoint e => e = endpoint
  | _ => False

def CacheAction.Puts (table : String) (endpoint : EndpointKey) (key : String) :
    CacheAction → Prop
  | .call (.put t e k _) _ => t = table ∧ e.storageKey = endpoint.storageKey ∧ k = key
  | _ => False

theorem Represents.hasRow_iff {db : Database} {m : Snapshot} (h : Represents db m)
    (table endpoint key : String) :
    HasRow db table endpoint key ↔ m table endpoint key ≠ none := by
  cases hcolumn : keyColumnFor table with
  | none => simp [HasRow, hcolumn, h.unknown table hcolumn]
  | some keyColumn =>
    obtain ⟨rows, hdb, hshows⟩ := h.shown table keyColumn hcolumn
    constructor
    · rintro ⟨column, t, row, hc, ht, hrow, hendpoint, hkey⟩
      cases hcolumn.symm.trans hc
      cases hdb.symm.trans ht
      obtain ⟨e, k, b, hb, hmb⟩ := hshows.sound row hrow
      cases hb.endpoint.symm.trans hendpoint
      cases hb.key.symm.trans hkey
      simp [hmb]
    · intro hsome
      obtain ⟨b, hmb⟩ := Option.ne_none_iff_exists'.mp hsome
      obtain ⟨row, hrow, hb⟩ := hshows.complete endpoint key b hmb
      exact ⟨keyColumn, _, row, hcolumn, hdb, hrow, hb.endpoint, hb.key⟩

/-! ## Batches -/

namespace Snapshot

variable {endpoint key table : String}

variable {batch : List PendingWrite} {m : Snapshot} {w : PendingWrite}

theorem write_of_not_writes (h : w.writes table endpoint key = false) :
    m.write w table endpoint key = m table endpoint key := by
  simp [write, h]

theorem write_ne_none (h : w.writes table endpoint key = true ∨ m table endpoint key ≠ none) :
    m.write w table endpoint key ≠ none := by
  unfold write
  split
  next hw =>
    simp only [PendingWrite.writes, Bool.and_eq_true] at hw
    exact Option.isSome_iff_ne_none.mp hw.1.2
  next hw => exact h.resolve_left hw

theorem foldl_write_of_not_writes :
    ∀ {m : Snapshot}, (∀ w ∈ batch, w.writes table endpoint key = false) →
      batch.foldl write m table endpoint key = m table endpoint key := by
  induction batch with
  | nil => exact fun _ => rfl
  | cons w batch ih =>
    intro m h
    rw [List.foldl_cons, ih fun w' hw' => h w' (List.mem_cons_of_mem _ hw')]
    exact write_of_not_writes (h w List.mem_cons_self)

theorem foldl_write_ne_none : ∀ {m : Snapshot},
      (∃ w ∈ batch, w.writes table endpoint key = true) ∨ m table endpoint key ≠ none →
        batch.foldl write m table endpoint key ≠ none := by
  induction batch with
  | nil => simp
  | cons w batch ih =>
    intro m h
    apply ih
    rcases h with ⟨w', hmem, hw'⟩ | hm
    · rcases List.mem_cons.mp hmem with rfl | hmem
      · exact .inr (write_ne_none (.inl hw'))
      · exact .inl ⟨w', hmem, hw'⟩
    · exact .inr (write_ne_none (.inr hm))

end Snapshot

/-! ## The snapshot along a run -/

namespace PersistentCache

/-- The snapshot that the database stands for; spawned threads write elsewhere. -/
structure Tracks (s : PersistentCache) (m : Snapshot) : Prop where
  db : Represents s.db m
  threads : ∀ statement ∈ s.threads, keyColumnFor statement.table = none

def onSnapshot (s : PersistentCache) (m : Snapshot) : CacheAction → Snapshot
  | .call (.removeKey table endpoint key) _ => m.remove table endpoint.storageKey key
  | .call (.clearEndpoint endpoint) _ => m.clear endpoint.storageKey
  | .timeout => s.batch.foldl Snapshot.write m
  | _ => m

variable {s s' : PersistentCache} {key table : String} {a : CacheAction}

variable {m : Snapshot}

/-- **The step lemma**: only flushes and removals change the snapshot. -/
theorem Tracks.step (h : s.Tracks m) (hs : s.step a = some s') : s'.Tracks (s.onSnapshot m a) := by
  cases a with
  | call c now =>
    cases hs
    cases c with
    | put table endpoint key payload | flush => exact { h with }
    | putUsage endpoint volumeName sizeBytes refCount | recordConnection endpoint apiVersion =>
      refine ⟨h.db, ?_⟩
      intro statement hmem
      rcases List.mem_append.mp hmem with hmem | hmem
      · exact h.threads statement hmem
      · rw [List.mem_singleton.mp hmem]
        rfl
    | removeKey table endpoint key => exact ⟨h.db.removeKey table endpoint key, h.threads⟩
    | clearEndpoint endpoint => exact ⟨h.db.clearEndpoint endpoint, h.threads⟩
  | receive =>
    simp only [PersistentCache.step] at hs
    split at hs
    next => cases hs
    next =>
      cases hs
      exact { h with }
  | timeout =>
    simp only [PersistentCache.step] at hs
    split at hs
    next => cases hs
    next =>
      cases hs
      exact ⟨h.db.flushBatch s.batch, h.threads⟩
  | thread statement =>
    simp only [PersistentCache.step] at hs
    split at hs
    next hmem =>
      cases hs
      refine ⟨h.db.run_other (h.threads statement hmem), ?_⟩
      intro other hother
      exact h.threads other (List.mem_of_mem_erase hother)
    next => cases hs

theorem tracks_reach (h : persistentCache.Reach (fun _ _ => True) s) : ∃ m, s.Tracks m := by
  apply Machine.Reach.invariant _ _ h
  · rintro s ⟨db, m, hm, rfl⟩
    exact ⟨m, hm, by simp [opened]⟩
  · rintro s a s' ⟨m, hm⟩ - hs
    exact ⟨_, hm.step hs⟩

theorem pending_step (hs : s.step a = some s') {w : PendingWrite} (hw : w ∈ s'.pending) :
    w ∈ s.pending ∨ w.payload = none ∨ ∃ table endpoint key payload now,
      a = .call (.put table endpoint key payload) now ∧
        w = ⟨table, endpoint.storageKey, key, payload, now⟩ := by
  cases a with
  | call c now =>
    cases hs
    cases c with
    | put table endpoint key payload =>
      simp only [pending, perform, enqueue, List.mem_append, List.mem_singleton] at hw
      rcases hw with hw | hw | hw
      · exact .inl (List.mem_append_left _ hw)
      · exact .inl (List.mem_append_right _ hw)
      · exact .inr (.inr ⟨table, endpoint, key, payload, now, rfl, hw⟩)
    | flush =>
      simp only [pending, perform, enqueue, List.mem_append, List.mem_singleton] at hw
      rcases hw with hw | hw | rfl
      · exact .inl (List.mem_append_left _ hw)
      · exact .inl (List.mem_append_right _ hw)
      · exact .inr (.inl rfl)
    | _ => exact .inl hw
  | receive =>
    simp only [PersistentCache.step] at hs
    split at hs
    next => cases hs
    next first rest hchannel =>
      cases hs
      left
      simpa [pending, hchannel] using hw
  | timeout =>
    simp only [PersistentCache.step] at hs
    split at hs
    next => cases hs
    next =>
      cases hs
      exact .inl (List.mem_append_right _ hw)
  | thread statement =>
    simp only [PersistentCache.step] at hs
    split at hs
    next =>
      cases hs
      exact .inl hw
    next => cases hs

/-- There is no row, and no write that would bring it. -/
def Gone (s : PersistentCache) (table endpoint key : String) : Prop :=
  (∃ m, s.Tracks m ∧ m table endpoint key = none) ∧
    ∀ w ∈ s.pending, w.writes table endpoint key = false

theorem Gone.not_hasRow {endpoint : String} (h : s.Gone table endpoint key) :
    ¬ HasRow s.db table endpoint key := by
  obtain ⟨⟨m, hm, hnone⟩, -⟩ := h
  rw [hm.db.hasRow_iff]
  exact fun hsome => hsome hnone

theorem Gone.step {endpoint : EndpointKey} (h : s.Gone table endpoint.storageKey key)
    (hputs : ¬ a.Puts table endpoint key) (hs : s.step a = some s') :
    s'.Gone table endpoint.storageKey key := by
  obtain ⟨⟨m, hm, hnone⟩, hpending⟩ := h
  constructor
  · refine ⟨_, hm.step hs, ?_⟩
    unfold onSnapshot
    split
    · simp only [Snapshot.remove, hnone, ite_self]
    · simp only [Snapshot.clear, hnone, ite_self]
    · rw [Snapshot.foldl_write_of_not_writes]
      · exact hnone
      · exact fun w hw => hpending w (List.mem_append_left _ hw)
    · exact hnone
  · intro w hw
    rcases pending_step hs hw with hw | hpayload | ⟨t, e, k, payload, now, rfl, rfl⟩
    · exact hpending w hw
    · simp [PendingWrite.writes, hpayload]
    · rw [Bool.eq_false_iff]
      intro hwrites
      simp only [PendingWrite.writes, Bool.and_eq_true, beq_iff_eq] at hwrites
      exact hputs ⟨hwrites.1.1.1.1, hwrites.1.1.1.2, hwrites.1.1.2⟩

theorem exec_receive (channel : List PendingWrite) : ∀ s : PersistentCache,
    s.channel = channel →
      persistentCache.exec s (List.replicate channel.length .receive) =
        some { s with channel := [], batch := s.batch ++ channel } := by
  induction channel with
  | nil =>
    intro s hs
    obtain ⟨db, channel, batch, threads⟩ := s
    cases hs
    simp [Machine.exec]
  | cons w rest ih =>
    intro s hs
    have hstep : persistentCache.step s .receive =
        some { s with channel := rest, batch := s.batch ++ [w] } := by
      simp [persistentCache, PersistentCache.step, hs]
    rw [List.length_cons, List.replicate_succ, Machine.exec, hstep, Option.bind_some, ih _ rfl]
    simp

/-- The flusher can always get everything that is pending into the database. -/
theorem exists_flush (h : s.pending ≠ []) :
    persistentCache.exec s (List.replicate s.channel.length .receive ++ [.timeout]) =
      some { s with db := flushBatch s.db s.pending, channel := [], batch := [] } := by
  rw [Machine.exec_append, exec_receive s.channel s rfl, Option.bind_some]
  simp only [pending] at h
  simp [Machine.exec, persistentCache, PersistentCache.step, h, pending]

theorem removes_step {c : CacheCall} {now : Int64} {endpoint : EndpointKey} (hm : s.Tracks m)
    (hremoves : c.Removes table endpoint key) (hs : s.step (.call c now) = some s') :
    (∃ m', s'.Tracks m' ∧ m' table endpoint.storageKey key = none) ∧
      s'.pending = s.pending := by
  refine ⟨⟨_, hm.step hs, ?_⟩, ?_⟩
  · cases c with
    | removeKey t e k =>
      obtain ⟨rfl, rfl, rfl⟩ := hremoves
      simp [onSnapshot, Snapshot.remove]
    | clearEndpoint e =>
      cases hremoves
      simp [onSnapshot, Snapshot.clear]
    | _ => cases hremoves
  · cases hs
    cases c with
    | removeKey t e k => rfl
    | clearEndpoint e => rfl
    | _ => cases hremoves

/-- **When a removal wins.** After `remove_key` or `clear_endpoint` of a row, in any state
of any run, the row stays away for as long as it is not put again, exactly when no write
for it was pending. -/
theorem removal_wins_iff {s s' : PersistentCache}
    (h : persistentCache.Reach (fun _ _ => True) s) {c : CacheCall} {now : Int64}
    {table key : String} {endpoint : EndpointKey} (hremoves : c.Removes table endpoint key)
    (hs : s.step (.call c now) = some s') :
    (∀ as later, (∀ a ∈ as, ¬ a.Puts table endpoint key) →
        persistentCache.exec s' as = some later →
        ¬ HasRow later.db table endpoint.storageKey key) ↔
      ∀ w ∈ s.pending, w.writes table endpoint.storageKey key = false := by
  obtain ⟨m, hm⟩ := tracks_reach h
  obtain ⟨⟨m', hm', hnone⟩, hpending⟩ := removes_step hm hremoves hs
  constructor
  · -- otherwise the flusher brings the row back by itself
    intro hgone w hw
    rw [Bool.eq_false_iff]
    intro hwrites
    rw [← hpending] at hw
    refine hgone _ _ ?_ (exists_flush (List.ne_nil_of_mem hw)) ?_
    · intro a ha hputs
      rcases List.mem_append.mp ha with ha | ha
      · rw [(List.mem_replicate.mp ha).2] at hputs
        cases hputs
      · rw [List.mem_singleton.mp ha] at hputs
        cases hputs
    · rw [(hm'.db.flushBatch s'.pending).hasRow_iff]
      exact Snapshot.foldl_write_ne_none (.inl ⟨w, hw, hwrites⟩)
  · intro hquiet as later hputs hexec
    have hgone : s'.Gone table endpoint.storageKey key :=
      ⟨⟨m', hm', hnone⟩, fun w hw => hquiet w (hpending ▸ hw)⟩
    have hlater : later.Gone table endpoint.storageKey key :=
      Machine.exec_invariant (I := fun s => s.Gone table endpoint.storageKey key)
        (fun _ _ _ hg hp hstep => hg.step hp hstep) hputs hexec hgone
    exact hlater.not_hasRow

def onePayload : Option Bytes := some [49]

def putImage (key : String) : CacheAction :=
  .call (.put "image_details" localEndpoint key onePayload) 0

/-- A row is in the table, another is on its way. -/
def flushedAndPending : List CacheAction :=
  [putImage "sha256:abc", .receive, .timeout, putImage "sha256:def", .receive]

def newCache : PersistentCache := opened (createSchema fun _ => none)

theorem reach_newCache {as : List CacheAction} (h : persistentCache.exec newCache as = some s) :
    persistentCache.Reach (fun _ _ => True) s :=
  Machine.reach_of_exec (.init ⟨_, _, Represents.createSchema, rfl⟩)
    (Machine.allSteps_of_forall (fun _ _ => trivial) _ _) h

theorem hasRow_of_any {db : Database} {keyColumn endpoint : String}
    (hcolumn : keyColumnFor table = some keyColumn)
    (h : (db table).any (fun t => t.rows.any fun row =>
      row "endpoint_key" == .text endpoint && row keyColumn == .text key) = true) :
    HasRow db table endpoint key := by
  cases hdb : db table with
  | none => simp [hdb] at h
  | some t =>
    rw [hdb] at h
    obtain ⟨row, hrow, hsat⟩ := List.any_eq_true.mp h
    simp only [Bool.and_eq_true, beq_iff_eq] at hsat
    exact ⟨keyColumn, t, row, hcolumn, hdb, hrow, hsat.1, hsat.2⟩

/-- The result for such a run: the row that is in the table can be removed for good. -/
theorem flushed_row_removed_for_good :
    ∃ s s', persistentCache.exec newCache flushedAndPending = some s ∧
      HasRow s.db "image_details" localEndpoint.storageKey "sha256:abc" ∧
      s.step (.call (.removeKey "image_details" localEndpoint "sha256:abc") 1) = some s' ∧
      ∀ as later, (∀ a ∈ as, ¬ a.Puts "image_details" localEndpoint "sha256:abc") →
        persistentCache.exec s' as = some later →
        ¬ HasRow later.db "image_details" localEndpoint.storageKey "sha256:abc" := by
  have hrun : ∃ s ∈ persistentCache.exec newCache flushedAndPending,
      (s.db "image_details").any (fun t => t.rows.any fun row =>
        row "endpoint_key" == .text localEndpoint.storageKey &&
          row "image_id" == .text "sha256:abc") = true ∧
      ∀ w ∈ s.pending,
        w.writes "image_details" localEndpoint.storageKey "sha256:abc" = false := by
    decide +kernel
  obtain ⟨s, hs, hrow, hquiet⟩ := hrun
  have hexec := Option.mem_def.mp hs
  have hremoves : (CacheCall.removeKey "image_details" localEndpoint "sha256:abc").Removes
      "image_details" localEndpoint "sha256:abc" := ⟨rfl, rfl, rfl⟩
  refine ⟨s, _, hexec, hasRow_of_any rfl hrow, rfl, ?_⟩
  exact (removal_wins_iff (reach_newCache hexec) hremoves rfl).mpr hquiet

/-- A `put`, a removal that returns, and the flush of the put: the row is there. -/
theorem removed_row_comes_back :
    (∃ later, persistentCache.exec newCache
        [putImage "sha256:abc", .call (.removeKey "image_details" localEndpoint "sha256:abc") 1,
          .receive, .timeout] = some later ∧
        HasRow later.db "image_details" localEndpoint.storageKey "sha256:abc") ∧
      ∃ later, persistentCache.exec newCache
        [putImage "sha256:abc", .call (.clearEndpoint localEndpoint) 1,
          .receive, .timeout] = some later ∧
        HasRow later.db "image_details" localEndpoint.storageKey "sha256:abc" := by
  have hrun : ∀ removal ∈ [CacheCall.removeKey "image_details" localEndpoint "sha256:abc",
        .clearEndpoint localEndpoint],
      ∃ later ∈ persistentCache.exec newCache
          [putImage "sha256:abc", .call removal 1, .receive, .timeout],
        (later.db "image_details").any (fun t => t.rows.any fun row =>
          row "endpoint_key" == .text localEndpoint.storageKey &&
            row "image_id" == .text "sha256:abc") = true := by
    decide +kernel
  obtain ⟨s, hs, hrow⟩ := hrun _ List.mem_cons_self
  obtain ⟨t, ht, hrow'⟩ := hrun _ (List.mem_cons_of_mem _ List.mem_cons_self)
  exact ⟨⟨s, Option.mem_def.mp hs, hasRow_of_any rfl hrow⟩,
    t, Option.mem_def.mp ht, hasRow_of_any rfl hrow'⟩

end PersistentCache

end TuxStack.Cache
