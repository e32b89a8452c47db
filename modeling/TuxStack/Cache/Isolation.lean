import TuxStack.Cache.WriteBehind

/-!
# Isolation of endpoints

Two runs that differ in the calls of one endpoint agree outside the rows of its storage
key, in the database and in what is pending (`Agree`), and the reads of other storage keys
cannot tell them apart.

The storage key joins the fields with `|`, and the fields may contain one themselves; an
absent daemon id in front of a context name looks like an empty one. So different
endpoints can share a storage key, and then each sees the rows of the other.
`isolated_iff` has the exact condition: the fields, cut at every `|`, are different.
-/

namespace TuxStack.Cache

open Runs Sql

/-- The endpoint that a call is made under. -/
def CacheCall.endpoint : CacheCall → Option EndpointKey
  | .put _ e _ _ => some e
  | .putUsage e _ _ _ => some e
  | .removeKey _ e _ => some e
  | .clearEndpoint e => some e
  | .recordConnection e _ => some e
  | .flush => none

def callsOf (as : List CacheAction) : List (CacheCall × Int64) :=
  as.filterMap fun
    | .call c now => some (c, now)
    | _ => none

structure SameReads (endpoint : EndpointKey) (db db' : Database) : Prop where
  hydrate : ∀ (T : Type) (decode : Bytes → Option T) table,
    hydrate decode db table endpoint = hydrate decode db' table endpoint
  usage : hydrateUsage db endpoint = hydrateUsage db' endpoint
  connected : lastConnected db endpoint = lastConnected db' endpoint

/-- Calls under `e` do not affect what `observer` reads: a run of calls under `e` leaves
it as it was, and what `observer` reads after any run of calls under any endpoints, it
also reads after a run with the same calls less those under `e`. -/
structure Isolated (e observer : EndpointKey) : Prop where
  alone : ∀ db as s, (∀ c ∈ callsOf as, c.1.endpoint = some e) →
    persistentCache.exec (.opened db) as = some s → SameReads observer s.db db
  mixed : ∀ db as s, persistentCache.exec (.opened db) as = some s →
    ∃ bs t, persistentCache.exec (.opened db) bs = some t ∧
      callsOf bs = (callsOf as).filter (fun c => c.1.endpoint ≠ some e) ∧
      SameReads observer s.db t.db

namespace EndpointKey

def fields (e : EndpointKey) : List String :=
  match e.daemonId, e.contextName with
  | some daemon, some context => [e.fingerprint, daemon, context]
  | some daemon, none => [e.fingerprint, daemon]
  | none, some context => [e.fingerprint, "", context]
  | none, none => [e.fingerprint]

/-- The fields, each cut at its separators. -/
def pieces (e : EndpointKey) : List (List Char) :=
  e.fields.flatMap fun field => field.toList.splitOn '|'

theorem splitOn_storageKey (e : EndpointKey) : e.storageKey.toList.splitOn '|' = e.pieces := by
  unfold storageKey pieces fields
  rcases e with ⟨fingerprint, _ | daemon, _ | context⟩ <;>
    simp [String.toList_append, List.append_assoc, List.splitOn_append_cons_self,
      List.splitOn_cons_eq_if_modifyHead]

theorem storageKey_eq_iff {e e' : EndpointKey} :
    e.storageKey = e'.storageKey ↔ e.pieces = e'.pieces := by
  constructor
  · intro h
    rw [← splitOn_storageKey, ← splitOn_storageKey, h]
  · intro h
    rw [← splitOn_storageKey, ← splitOn_storageKey] at h
    have hjoin := congrArg (List.intercalate ['|']) h
    rw [List.intercalate_splitOn, List.intercalate_splitOn] at hjoin
    exact String.toList_inj.mp hjoin

end EndpointKey

/-! ## Agreement outside one storage key -/

/-- The databases agree outside the rows of the storage key. -/
def SameOutside (storage : String) (db db' : Database) : Prop :=
  db.without "endpoint_key" (.text storage) = db'.without "endpoint_key" (.text storage)

/-- The write reaches a row outside the storage key. -/
def PendingWrite.outside (storage : String) (w : PendingWrite) : Bool :=
  w.payload.isSome && w.endpoint != storage

/-- The storage key that a statement is about. -/
def tenant : Statement → Value
  | .upsert _ values _ _ => Row.ofValues values "endpoint_key"
  | .delete _ conditions => Row.ofValues conditions "endpoint_key"

/-- The statement is about rows outside the storage key. -/
def outsideStatement (storage : String) (statement : Statement) : Bool :=
  tenant statement != .text storage

section Databases

variable {storage : String} {db db' : Database}

theorem SameOutside.run (h : SameOutside storage db db') {statement : Statement} {v : Value}
    (hwithin : statement.Within "endpoint_key" v) :
    SameOutside storage (statement.run db) (statement.run db') :=
  Statement.run_without_congr hwithin h

theorem SameOutside.run_left (h : SameOutside storage db db') {statement : Statement}
    (hwithin : statement.Within "endpoint_key" (.text storage)) :
    SameOutside storage (statement.run db) db' :=
  (Statement.run_without_of_within hwithin db).trans h

/-- The upsert of the flusher is about the endpoint of the write. -/
theorem within_upsertPayload {w : PendingWrite} {keyColumn : String} {payload : Bytes} :
    (upsertPayload w keyColumn payload).Within "endpoint_key" (.text w.endpoint) := by
  refine ⟨?_, ?_, ?_⟩
  · simp [Row.ofValues]
  · simp
  · decide

theorem within_deleteKey (table keyColumn endpoint key : String) :
    (deleteKey table keyColumn endpoint key).Within "endpoint_key" (.text endpoint) := by
  simp [Statement.Within, deleteKey]

theorem within_deleteEndpoint (table endpoint : String) :
    (Statement.delete table [("endpoint_key", .text endpoint)]).Within "endpoint_key"
      (.text endpoint) := by
  simp [Statement.Within]

/-- Operations that run statements about the rows under one value. -/
inductive Runs (v : Value) : (Database → Database) → Prop where
  | nothing : Runs v fun db => db
  | statement {statement : Statement} (h : statement.Within "endpoint_key" v) :
      Runs v statement.run
  | comp {f g : Database → Database} (hf : Runs v f) (hg : Runs v g) : Runs v (g ∘ f)

theorem SameOutside.runs {v : Value} {f : Database → Database} (h : SameOutside storage db db')
    (hf : Runs v f) : SameOutside storage (f db) (f db') := by
  induction hf generalizing db db' with
  | nothing => exact h
  | statement hwithin => exact h.run hwithin
  | comp _ _ ihf ihg => exact ihg (ihf h)

theorem SameOutside.runs_left {f : Database → Database} (h : SameOutside storage db db')
    (hf : Runs (.text storage) f) : SameOutside storage (f db) db' := by
  induction hf generalizing db with
  | nothing => exact h
  | statement hwithin => exact h.run_left hwithin
  | comp _ _ ihf ihg => exact ihg (ihf h)

theorem runs_flushWrite (w : PendingWrite) : Runs (.text w.endpoint) (flushWrite · w) := by
  unfold flushWrite
  cases w.payload with
  | none => exact .nothing
  | some payload =>
    cases keyColumnFor w.table with
    | none => exact .nothing
    | some keyColumn => exact .statement within_upsertPayload

theorem SameOutside.flushBatch {batch : List PendingWrite} : ∀ {db db' : Database},
    SameOutside storage db db' → SameOutside storage (flushBatch db batch)
      (flushBatch db' (batch.filter (·.outside storage))) := by
  induction batch with
  | nil => exact fun h => h
  | cons w batch ih =>
    intro db db' h
    by_cases hw : w.outside storage = true
    · rw [List.filter_cons_of_pos hw]
      exact ih (h.runs (runs_flushWrite w))
    · rw [List.filter_cons_of_neg hw]
      refine ih ?_
      cases hpayload : w.payload with
      | none => simpa only [flushWrite, hpayload] using h
      | some payload =>
        have hendpoint : w.endpoint = storage := by
          simpa [PendingWrite.outside, hpayload] using hw
        exact h.runs_left (hendpoint ▸ runs_flushWrite w)

variable {endpoint : EndpointKey}

theorem runs_removeKey (table : String) (endpoint : EndpointKey) (key : String) :
    Runs (.text endpoint.storageKey) (removeKey · table endpoint key) := by
  unfold removeKey
  cases keyColumnFor table with
  | none => exact .nothing
  | some keyColumn => exact .statement (within_deleteKey _ _ _ _)

theorem runs_clearEndpoint (endpoint : EndpointKey) :
    Runs (.text endpoint.storageKey) (clearEndpoint · endpoint) := by
  unfold clearEndpoint
  induction clearedTables with
  | nil => exact .nothing
  | cons table tables ih => exact .comp (.statement (within_deleteEndpoint table _)) ih

theorem SameOutside.query_eq (h : SameOutside storage db db') {select : Select}
    {endpoint : String} (hmem : ("endpoint_key", .text endpoint) ∈ select.conditions)
    (hne : endpoint ≠ storage) : select.query db = select.query db' := by
  have hvalue : (.text endpoint : Value) ≠ .text storage := by simpa using hne
  rw [← Select.query_without hmem hvalue db, h, Select.query_without hmem hvalue db']

theorem SameOutside.sameReads (h : SameOutside storage db db') (hne : endpoint.storageKey ≠ storage)
    : SameReads endpoint db db' := by
  constructor
  · intro T decode table
    unfold hydrate
    split
    · rfl
    · simp only [queryMap]
      rw [h.query_eq (by simp) hne]
  · simp only [hydrateUsage, queryMap]
    rw [h.query_eq (by simp) hne]
  · simp only [lastConnected, queryRow]
    rw [h.query_eq (by simp) hne]

end Databases

/-! ## The simulation -/

/-- The caches agree outside the storage key, in the tables and in what is pending. -/
structure Agree (storage : String) (s t : PersistentCache) : Prop where
  db : SameOutside storage s.db t.db
  channel : s.channel.filter (·.outside storage) = t.channel.filter (·.outside storage)
  batch : s.batch.filter (·.outside storage) = t.batch.filter (·.outside storage)
  threads : s.threads.filter (outsideStatement storage) =
    t.threads.filter (outsideStatement storage)
  -- spawned statements keep to the rows of their endpoint
  within : ∀ statement ∈ s.threads, statement.Within "endpoint_key" (tenant statement)

theorem within_upsertUsage (endpoint : EndpointKey) (volumeName : String)
    (sizeBytes refCount : Option UInt64) (now : Int64) :
    tenant (upsertUsage endpoint volumeName sizeBytes refCount now) =
        .text endpoint.storageKey ∧
      (upsertUsage endpoint volumeName sizeBytes refCount now).Within "endpoint_key"
        (.text endpoint.storageKey) := by
  have htenant : tenant (upsertUsage endpoint volumeName sizeBytes refCount now) =
      .text endpoint.storageKey := by
    simp [tenant, upsertUsage, Row.ofValues]
  exact ⟨htenant, htenant, by simp, by decide⟩

theorem within_upsertConnection (endpoint : EndpointKey) (apiVersion : Option String)
    (now : Int64) :
    tenant (upsertConnection endpoint apiVersion now) = .text endpoint.storageKey ∧
      (upsertConnection endpoint apiVersion now).Within "endpoint_key"
        (.text endpoint.storageKey) := by
  have htenant : tenant (upsertConnection endpoint apiVersion now) =
      .text endpoint.storageKey := by
    simp [tenant, upsertConnection, Row.ofValues]
  exact ⟨htenant, htenant, by simp, by decide⟩

namespace Agree

variable {storage : String} {s t : PersistentCache}

theorem enqueue (h : Agree storage s t) (w : PendingWrite) :
    Agree storage (s.enqueue w) (t.enqueue w) := by
  refine ⟨h.db, ?_, h.batch, h.threads, h.within⟩
  simp only [PersistentCache.enqueue, List.filter_append, h.channel]

theorem enqueue_left (h : Agree storage s t) {w : PendingWrite}
    (hw : w.outside storage = false) : Agree storage (s.enqueue w) t := by
  refine ⟨h.db, ?_, h.batch, h.threads, h.within⟩
  simp [PersistentCache.enqueue, List.filter_append, hw, h.channel]

variable {statement : Statement}

theorem within_append (h : Agree storage s t) {v : Value}
    (hwithin : tenant statement = v ∧ statement.Within "endpoint_key" v) :
    ∀ other ∈ s.threads ++ [statement], other.Within "endpoint_key" (tenant other) := by
  intro other hmem
  rcases List.mem_append.mp hmem with hmem | hmem
  · exact h.within other hmem
  · rw [List.mem_singleton.mp hmem, hwithin.1]
    exact hwithin.2

theorem spawn (h : Agree storage s t) {v : Value}
    (hwithin : tenant statement = v ∧ statement.Within "endpoint_key" v) :
    Agree storage { s with threads := s.threads ++ [statement] }
      { t with threads := t.threads ++ [statement] } := by
  refine ⟨h.db, h.channel, h.batch, ?_, h.within_append hwithin⟩
  simp only [List.filter_append, h.threads]

theorem spawn_left (h : Agree storage s t) (hwithin : tenant statement = .text storage ∧
      statement.Within "endpoint_key" (.text storage)) :
    Agree storage { s with threads := s.threads ++ [statement] } t := by
  refine ⟨h.db, h.channel, h.batch, ?_, h.within_append hwithin⟩
  simp [List.filter_append, outsideStatement, hwithin.1, h.threads]

theorem perform (h : Agree storage s t) (c : CacheCall) (now : Int64) :
    Agree storage (s.perform now c) (t.perform now c) := by
  cases c with
  | put table endpoint key payload => exact h.enqueue _
  | putUsage endpoint volumeName sizeBytes refCount =>
    exact h.spawn (within_upsertUsage endpoint volumeName sizeBytes refCount now)
  | removeKey table endpoint key =>
    exact ⟨h.db.runs (runs_removeKey table endpoint key), h.channel, h.batch, h.threads, h.within⟩
  | clearEndpoint endpoint =>
    exact ⟨h.db.runs (runs_clearEndpoint endpoint), h.channel, h.batch, h.threads, h.within⟩
  | recordConnection endpoint apiVersion =>
    exact h.spawn (within_upsertConnection endpoint apiVersion now)
  | flush => exact h.enqueue _

theorem perform_left (h : Agree storage s t) {c : CacheCall} {endpoint : EndpointKey}
    (hc : c.endpoint = some endpoint) (hstorage : endpoint.storageKey = storage)
    (now : Int64) : Agree storage (s.perform now c) t := by
  subst hstorage
  cases c with
  | put table e key payload =>
    cases hc
    exact h.enqueue_left (by simp [PendingWrite.outside])
  | putUsage e volumeName sizeBytes refCount =>
    cases hc
    exact h.spawn_left (within_upsertUsage endpoint volumeName sizeBytes refCount now)
  | removeKey table e key =>
    cases hc
    exact ⟨h.db.runs_left (runs_removeKey table _ key), h.channel, h.batch, h.threads, h.within⟩
  | clearEndpoint e =>
    cases hc
    exact ⟨h.db.runs_left (runs_clearEndpoint _), h.channel, h.batch, h.threads, h.within⟩
  | recordConnection e apiVersion =>
    cases hc
    exact h.spawn_left (within_upsertConnection endpoint apiVersion now)
  | flush => cases hc

/-- The right side takes up writes until it has the next one that reaches outside. -/
theorem exists_receive {w : PendingWrite} {rest : List PendingWrite}
    (channel : List PendingWrite) : ∀ t : PersistentCache, t.channel = channel →
      channel.filter (·.outside storage) = w :: rest →
      ∃ n t', persistentCache.exec t (List.replicate n .receive) = some t' ∧
        t'.channel.filter (·.outside storage) = rest ∧
        t'.batch.filter (·.outside storage) = t.batch.filter (·.outside storage) ++ [w] ∧
        t'.db = t.db ∧ t'.threads = t.threads := by
  induction channel with
  | nil =>
    intro t _ hfilter
    cases hfilter
  | cons first channel ih =>
    intro t ht hfilter
    have hstep : persistentCache.step t .receive =
        some { t with channel := channel, batch := t.batch ++ [first] } := by
      simp [persistentCache, PersistentCache.step, ht]
    by_cases hfirst : first.outside storage = true
    · rw [List.filter_cons_of_pos hfirst] at hfilter
      cases hfilter
      refine ⟨1, { t with channel := channel, batch := t.batch ++ [w] }, ?_, rfl, ?_,
        rfl, rfl⟩
      · simp [Machine.exec, hstep]
      · simp [List.filter_append, hfirst]
    · rw [List.filter_cons_of_neg hfirst] at hfilter
      obtain ⟨n, t', hexec, hchannel, hbatch, hdb, hthreads⟩ :=
        ih { t with channel := channel, batch := t.batch ++ [first] } rfl hfilter
      refine ⟨n + 1, t', ?_, hchannel, ?_, hdb, hthreads⟩
      · rw [List.replicate_succ, Machine.exec, hstep]
        exact hexec
      · simpa [List.filter_append, hfirst] using hbatch

end Agree

theorem callsOf_append (as bs : List CacheAction) :
    callsOf (as ++ bs) = callsOf as ++ callsOf bs :=
  List.filterMap_append

theorem callsOf_receive (n : Nat) : callsOf (List.replicate n .receive) = [] := by
  simp [callsOf]

namespace Agree

variable {e : EndpointKey} {s s' t : PersistentCache}

/-- **The step lemma**: what one side does, the other does without the calls under `e`. -/
theorem step (h : Agree e.storageKey s t) {a : CacheAction} (hs : s.step a = some s') :
    ∃ bs t', persistentCache.exec t bs = some t' ∧
      callsOf bs = (callsOf [a]).filter (fun c => c.1.endpoint ≠ some e) ∧
      Agree e.storageKey s' t' := by
  cases a with
  | call c now =>
    cases hs
    by_cases hc : c.endpoint = some e
    · exact ⟨[], t, rfl, by simp [callsOf, hc], h.perform_left hc rfl now⟩
    · exact ⟨[.call c now], t.perform now c, rfl, by simp [callsOf, hc], h.perform c now⟩
  | receive =>
    simp only [PersistentCache.step] at hs
    split at hs
    next => cases hs
    next w rest hchannel =>
      cases hs
      by_cases hw : w.outside e.storageKey = true
      · have hfilter : t.channel.filter (·.outside e.storageKey) =
            w :: rest.filter (·.outside e.storageKey) := by
          rw [← h.channel, hchannel, List.filter_cons_of_pos hw]
        obtain ⟨n, t', hexec, htchannel, htbatch, hdb, hthreads⟩ :=
          exists_receive t.channel t rfl hfilter
        refine ⟨_, t', hexec, callsOf_receive n, ?_⟩
        refine ⟨hdb ▸ h.db, htchannel.symm, ?_, hthreads ▸ h.threads, h.within⟩
        rw [htbatch, ← h.batch]
        simp [List.filter_append, hw]
      -- a write of the endpoint itself has no counterpart in the other run
      · refine ⟨[], t, rfl, rfl, ⟨h.db, ?_, ?_, h.threads, h.within⟩⟩
        · rw [← h.channel, hchannel, List.filter_cons_of_neg hw]
        · simpa [List.filter_append, hw] using h.batch
  | timeout =>
    simp only [PersistentCache.step] at hs
    split at hs
    next => cases hs
    next =>
      cases hs
      have hleft : SameOutside e.storageKey (flushBatch s.db s.batch)
          (flushBatch t.db (t.batch.filter (·.outside e.storageKey))) :=
        h.batch ▸ h.db.flushBatch
      -- with an empty batch the other run cannot time out, and need not
      by_cases htbatch : t.batch = []
      · refine ⟨[], t, rfl, rfl, ⟨?_, h.channel, ?_, h.threads, h.within⟩⟩
        · rw [htbatch] at hleft
          exact hleft
        · simp [htbatch]
      · have hexec : persistentCache.exec t [.timeout] =
            some { t with db := flushBatch t.db t.batch, batch := [] } := by
          simp [Machine.exec, persistentCache, PersistentCache.step, htbatch]
        have hright : SameOutside e.storageKey (flushBatch t.db t.batch)
            (flushBatch t.db (t.batch.filter (·.outside e.storageKey))) :=
          SameOutside.flushBatch rfl
        exact ⟨[.timeout], _, hexec, rfl,
          ⟨hleft.trans hright.symm, h.channel, rfl, h.threads, h.within⟩⟩
  | thread statement =>
    simp only [PersistentCache.step] at hs
    split at hs
    next hmem =>
      cases hs
      have hwithin := h.within statement hmem
      have hrest : ∀ other ∈ s.threads.erase statement,
          other.Within "endpoint_key" (tenant other) :=
        fun other hother => h.within other (List.mem_of_mem_erase hother)
      by_cases houtside : outsideStatement e.storageKey statement = true
      · have hright : statement ∈ t.threads := by
          have hfilter : statement ∈ t.threads.filter (outsideStatement e.storageKey) := by
            rw [← h.threads]
            exact List.mem_filter.mpr ⟨hmem, houtside⟩
          exact (List.mem_filter.mp hfilter).1
        have hexec : persistentCache.exec t [.thread statement] = some { t with
            db := statement.run t.db
            threads := t.threads.erase statement } := by
          simp [Machine.exec, persistentCache, PersistentCache.step, hright]
        refine ⟨[.thread statement], _, hexec, rfl,
          ⟨h.db.run hwithin, h.channel, h.batch, ?_, hrest⟩⟩
        rw [← List.erase_filter, ← List.erase_filter, h.threads]
      · have htenant : tenant statement = .text e.storageKey := by
          simpa [outsideStatement] using houtside
        refine ⟨[], t, rfl, rfl, ⟨h.db.run_left (htenant ▸ hwithin), h.channel, h.batch, ?_,
          hrest⟩⟩
        rw [← List.erase_filter, List.erase_of_not_mem, h.threads]
        exact fun hmem' => houtside (List.mem_filter.mp hmem').2
    next => cases hs

/-- **The run lemma.** -/
theorem exec {as : List CacheAction} : ∀ {s t : PersistentCache}, Agree e.storageKey s t →
    persistentCache.exec s as = some s' →
    ∃ bs t', persistentCache.exec t bs = some t' ∧
      callsOf bs = (callsOf as).filter (fun c => c.1.endpoint ≠ some e) ∧
      Agree e.storageKey s' t' := by
  induction as with
  | nil =>
    intro s t h hexec
    cases hexec
    exact ⟨[], t, rfl, rfl, h⟩
  | cons a as ih =>
    intro s t h hexec
    obtain ⟨s₁, hs, hexec⟩ := Option.bind_eq_some_iff.mp hexec
    obtain ⟨bs₁, t₁, hexec₁, hcalls₁, h₁⟩ := h.step hs
    obtain ⟨bs₂, t₂, hexec₂, hcalls₂, h₂⟩ := ih h₁ hexec
    refine ⟨bs₁ ++ bs₂, t₂, ?_, ?_, h₂⟩
    · rw [Machine.exec_append, hexec₁]
      exact hexec₂
    · have hsplit : callsOf (a :: as) = callsOf [a] ++ callsOf as :=
        callsOf_append [a] as
      rw [callsOf_append, hcalls₁, hcalls₂, hsplit, List.filter_append]

end Agree

/-- Without calls nothing happens to a cache that has been opened. -/
theorem exec_opened_of_no_calls {db : Database} {as : List CacheAction}
    {s : PersistentCache} (hcalls : callsOf as = [])
    (h : persistentCache.exec (.opened db) as = some s) : s = .opened db := by
  cases as with
  | nil =>
    cases h
    rfl
  | cons a as =>
    obtain ⟨s₁, hs, -⟩ := Option.bind_eq_some_iff.mp h
    cases a with
    | call c now => simp [callsOf] at hcalls
    | receive | timeout | thread statement => cases hs

variable {observer : EndpointKey}

theorem isolated_of_storageKey_ne {e : EndpointKey} (h : e.storageKey ≠ observer.storageKey) :
    Isolated e observer := by
  have hmixed : ∀ db as s, persistentCache.exec (.opened db) as = some s →
      ∃ bs t, persistentCache.exec (.opened db) bs = some t ∧
        callsOf bs = (callsOf as).filter (fun c => c.1.endpoint ≠ some e) ∧
        SameReads observer s.db t.db := by
    intro db as s hexec
    have hstart : Agree e.storageKey (.opened db) (.opened db) :=
      ⟨rfl, rfl, rfl, rfl, by simp [PersistentCache.opened]⟩
    obtain ⟨bs, t, hbs, hcalls, hagree⟩ := hstart.exec hexec
    exact ⟨bs, t, hbs, hcalls, hagree.db.sameReads (Ne.symm h)⟩
  refine ⟨?_, hmixed⟩
  intro db as s hunder hexec
  obtain ⟨bs, t, hbs, hcalls, hreads⟩ := hmixed db as s hexec
  have hnone : callsOf bs = [] := by
    rw [hcalls, List.filter_eq_nil_iff]
    intro c hc
    simp [hunder c hc]
  rw [exec_opened_of_no_calls hnone hbs] at hreads
  exact hreads

/-- A row that is put under one endpoint shows under another with the same storage key. -/
theorem not_isolated_of_storageKey_eq {e : EndpointKey} (h : e.storageKey = observer.storageKey) :
    ¬ Isolated e observer := by
  intro hisolated
  have hnew := Represents.createSchema
  have hrun : persistentCache.exec (.opened (createSchema fun _ => none))
      [.call (.put "image_details" e "sha256:abc" (some [])) 0, .receive, .timeout] =
      some (.opened (flushBatch (createSchema fun _ => none)
        [⟨"image_details", e.storageKey, "sha256:abc", some [], 0⟩])) := rfl
  have hreads := hisolated.alone _ _ _ (by simp [callsOf, CacheCall.endpoint]) hrun
  have hrow : ("sha256:abc", ()) ∈ hydrate (fun _ => some ())
      (createSchema fun _ => none) "image_details" observer := by
    rw [← hreads.hydrate Unit (fun _ => some ()) "image_details",
      PersistentCache.opened, (hnew.flushBatch _).mem_hydrate_iff _ rfl]
    exact ⟨[], by simp [Snapshot.write, PendingWrite.writes, h, keyColumnFor], rfl⟩
  obtain ⟨payload, hpayload, -⟩ := (hnew.mem_hydrate_iff _ rfl observer _ _).mp hrow
  cases hpayload

/-- **When endpoints are isolated.** Calls under one endpoint leave what another one reads
alone exactly when the two differ in the pieces of their fields. -/
theorem isolated_iff (e observer : EndpointKey) :
    Isolated e observer ↔ e.pieces ≠ observer.pieces := by
  rw [← not_iff_not, not_ne_iff, ← EndpointKey.storageKey_eq_iff]
  constructor
  · intro hnot
    by_contra hne
    exact hnot (isolated_of_storageKey_ne hne)
  · exact not_isolated_of_storageKey_eq

theorem EndpointKey.pieces_of_plain {e : EndpointKey}
    (h : ∀ field ∈ e.fields, '|' ∉ field.toList) : e.pieces = e.fields.map String.toList := by
  have hsingle : ∀ field ∈ e.fields, field.toList.splitOn '|' = [field.toList] :=
    fun field hfield => List.splitOn_eq_singleton (h field hfield)
  rw [EndpointKey.pieces, List.flatMap_congr hsingle, ← List.map_eq_flatMap]

/-- Endpoints whose fields have no separator, and no daemon id that is empty, are told
apart by their fields. -/
theorem EndpointKey.eq_of_fields_eq {e e' : EndpointKey} (h : e.daemonId ≠ some "")
    (h' : e'.daemonId ≠ some "") (hfields : e.fields = e'.fields) : e = e' := by
  rcases e with ⟨fingerprint, _ | daemon, _ | context⟩ <;>
    rcases e' with ⟨fingerprint', _ | daemon', _ | context'⟩ <;>
    simp_all [EndpointKey.fields]

/-- **Ordinary endpoints are isolated.** -/
theorem isolated_of_plain {e : EndpointKey} (hne : e ≠ observer)
    (h : ∀ field ∈ e.fields, '|' ∉ field.toList)
    (h' : ∀ field ∈ observer.fields, '|' ∉ field.toList) (hdaemon : e.daemonId ≠ some "")
    (hdaemon' : observer.daemonId ≠ some "") : Isolated e observer := by
  apply isolated_of_storageKey_ne
  intro hstorage
  have hpieces := EndpointKey.storageKey_eq_iff.mp hstorage
  rw [EndpointKey.pieces_of_plain h, EndpointKey.pieces_of_plain h'] at hpieces
  have hfields := List.map_injective_iff.mpr (fun _ _ => String.toList_inj.mp) hpieces
  exact hne (EndpointKey.eq_of_fields_eq hdaemon hdaemon' hfields)

theorem two_hosts_isolated :
    Isolated ⟨"tcp://a", none, none⟩ ⟨"tcp://b", some "id", none⟩ :=
  isolated_of_plain (by decide) (by decide) (by decide) (by decide) (by decide)

/-- Two different endpoints that see each other's rows. -/
theorem separator_in_fingerprint_not_isolated :
    (⟨"tcp://a|b", none, none⟩ : EndpointKey) ≠ ⟨"tcp://a", some "b", none⟩ ∧
      ¬ Isolated ⟨"tcp://a|b", none, none⟩ ⟨"tcp://a", some "b", none⟩ :=
  ⟨by decide, not_isolated_of_storageKey_eq (by decide)⟩

end TuxStack.Cache
