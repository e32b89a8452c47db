import Mathlib.Data.List.Induction
import TuxStack.Lib.Result
import TuxStack.Lib.Runs
import TuxStack.Lib.Sql

/-!
# The persistent cache

`PersistentCache` (`crates/docker-core/src/cache/persistent.rs`): snapshot rows in SQLite,
keyed by the storage key of an endpoint and the id of a resource. `put` goes through a
channel to the flusher thread, which collects a batch until the channel is quiet and
writes it in one transaction; `put_usage` and `record_connection` go through a thread of
their own that nobody joins; `remove_key`, `clear_endpoint` and the reads act on the
database before they return. Errors of statements are dropped everywhere.

What the five payload tables are for is a partial map from table, endpoint and key to
bytes (`Snapshot`). `Represents` ties the tables to it: the upsert of the flusher, the
deletes and the bulk read are the map's update, its erasures and its graph. The point
read is not its lookup, since it names a column that no table has: `get_agrees_iff`.
-/

namespace TuxStack.Cache

open Result Runs Sql

abbrev Bytes := List UInt8

def cacheSchemaVersion : Int64 := 1

structure EndpointKey where
  fingerprint : String
  daemonId : Option String
  contextName : Option String
deriving DecidableEq, Repr

def EndpointKey.storageKey (e : EndpointKey) : String :=
  match e.daemonId, e.contextName with
  | some daemon, some context => e.fingerprint ++ "|" ++ daemon ++ "|" ++ context
  | some daemon, none => e.fingerprint ++ "|" ++ daemon
  | none, some context => e.fingerprint ++ "||" ++ context
  | none, none => e.fingerprint

/-! ## Schema and statements -/

/-- `CREATE TABLE IF NOT EXISTS`. -/
def createTable (db : Database) (name : String) (columns primaryKey : List String) :
    Database :=
  match db name with
  | some _ => db
  | none => Function.update db name (some ⟨columns, primaryKey, []⟩)

/-- A table of payloads under the given key column. -/
def createPayloadTable (db : Database) (name keyColumn : String) : Database :=
  createTable db name ["endpoint_key", keyColumn, "payload", "updated_at"]
    ["endpoint_key", keyColumn]

def createSchema (db : Database) : Database :=
  let db := createTable db "docker_cache_metadata"
    ["endpoint_key", "schema_version", "daemon_id", "api_version", "last_connected_at"]
    ["endpoint_key"]
  let db := createPayloadTable db "image_summaries" "image_id"
  let db := createPayloadTable db "image_details" "image_id"
  let db := createPayloadTable db "volume_summaries" "volume_name"
  let db := createTable db "volume_usage"
    ["endpoint_key", "volume_name", "size_bytes", "ref_count", "measured_at"]
    ["endpoint_key", "volume_name"]
  let db := createPayloadTable db "network_summaries" "network_id"
  createPayloadTable db "container_summaries" "container_id"

def keyColumnFor : String → Option String
  | "image_summaries" | "image_details" => some "image_id"
  | "volume_summaries" => some "volume_name"
  | "network_summaries" => some "network_id"
  | "container_summaries" => some "container_id"
  | _ => none

structure PendingWrite where
  table : String
  endpoint : String
  key : String
  payload : Option Bytes
  timestamp : Int64
deriving DecidableEq, Repr

/-- The upsert of `flush_batch`. -/
def upsertPayload (w : PendingWrite) (keyColumn : String) (payload : Bytes) : Statement :=
  .upsert w.table
    [("endpoint_key", .text w.endpoint), (keyColumn, .text w.key),
      ("payload", .blob payload), ("updated_at", .integer w.timestamp)]
    ["endpoint_key", keyColumn] ["payload", "updated_at"]

/-- One turn of the loop of `flush_batch`. -/
def flushWrite (db : Database) (w : PendingWrite) : Database :=
  match w.payload with
  | none => db
  | some payload =>
    match keyColumnFor w.table with
    | none => db
    | some keyColumn => (upsertPayload w keyColumn payload).run db

def flushBatch (db : Database) (batch : List PendingWrite) : Database :=
  batch.foldl flushWrite db

def deleteKey (table keyColumn endpoint key : String) : Statement :=
  .delete table [("endpoint_key", .text endpoint), (keyColumn, .text key)]

def removeKey (db : Database) (table : String) (endpoint : EndpointKey) (key : String) :
    Database :=
  match keyColumnFor table with
  | none => db
  | some keyColumn => (deleteKey table keyColumn endpoint.storageKey key).run db

/-- The tables that `clear_endpoint` goes through. -/
def clearedTables : List String :=
  ["image_summaries", "image_details", "volume_summaries", "volume_usage",
    "network_summaries", "container_summaries"]

def clearEndpoint (db : Database) (endpoint : EndpointKey) : Database :=
  clearedTables.foldl (fun db table =>
    (Statement.delete table [("endpoint_key", .text endpoint.storageKey)]).run db) db

/-- The statement of `put_usage`. -/
def upsertUsage (endpoint : EndpointKey) (volumeName : String)
    (sizeBytes refCount : Option UInt64) (now : Int64) : Statement :=
  let column (n : Option UInt64) : Value := (n.map fun v => .integer v.toInt64).getD .null
  .upsert "volume_usage"
    [("endpoint_key", .text endpoint.storageKey), ("volume_name", .text volumeName),
      ("size_bytes", column sizeBytes), ("ref_count", column refCount),
      ("measured_at", .integer now)]
    ["endpoint_key", "volume_name"] ["size_bytes", "ref_count", "measured_at"]

/-- The statement of `record_connection`. -/
def upsertConnection (endpoint : EndpointKey) (apiVersion : Option String) (now : Int64) :
    Statement :=
  let column (s : Option String) : Value := (s.map .text).getD .null
  .upsert "docker_cache_metadata"
    [("endpoint_key", .text endpoint.storageKey),
      ("schema_version", .integer cacheSchemaVersion),
      ("daemon_id", column endpoint.daemonId), ("api_version", column apiVersion),
      ("last_connected_at", .integer now)]
    ["endpoint_key"] ["schema_version", "daemon_id", "api_version", "last_connected_at"]

/-! ## Reads -/

/-- `row.get` of a `String` and of a `Vec<u8>`. -/
def payloadRow : List Value → Option (String × Bytes)
  | [.text key, .blob payload] => some (key, payload)
  | _ => none

/-- `row.get` of an `Option<i64>`, as `u64`. -/
def unsignedColumn : Value → Option (Option UInt64)
  | .null => some none
  | .integer n => some (some n.toUInt64)
  | _ => none

def usageRow : List Value → Option (String × Option UInt64 × Option UInt64 × Int64)
  | [.text volumeName, size, count, .integer measuredAt] => do
      return (volumeName, ← unsignedColumn size, ← unsignedColumn count, measuredAt)
  | _ => none

/-- `query_map` and `collect`: no rows when the statement or one of the rows fails. -/
def queryMap {β : Type} (db : Database) (select : Select) (row : List Value → Option β) :
    List β :=
  match select.query db with
  | .ok rows => (rows.mapM row).getD []
  | .error _ => []

/-- `query_row` and `optional`: the first row, and nothing when there is none or the
statement fails. -/
def queryRow {β : Type} (db : Database) (select : Select) (row : List Value → Option β) :
    Option β :=
  match select.query db with
  | .ok rows => rows.head?.bind row
  | .error _ => none

section Reads

variable {T : Type} (decode : Bytes → Option T)

def hydrate (db : Database) (table : String) (endpoint : EndpointKey) : List (String × T) :=
  match keyColumnFor table with
  | none => []
  | some keyColumn =>
    let rows := queryMap db
      ⟨[keyColumn, "payload"], table, [("endpoint_key", .text endpoint.storageKey)]⟩
      payloadRow
    rows.filterMap fun row => (decode row.2).map fun value => (row.1, value)

/-- `PersistentCache::get`. The condition is on a column `key`. -/
def get (db : Database) (table : String) (endpoint : EndpointKey) (key : String) : Option T :=
  let payload := queryRow db
    ⟨["payload"], table,
      [("endpoint_key", .text endpoint.storageKey), ("key", .text key)]⟩
    fun
      | [.blob payload] => some payload
      | _ => none
  payload.bind decode

end Reads

def hydrateUsage (db : Database) (endpoint : EndpointKey) :
    List (String × Option UInt64 × Option UInt64 × Int64) :=
  queryMap db
    ⟨["volume_name", "size_bytes", "ref_count", "measured_at"], "volume_usage",
      [("endpoint_key", .text endpoint.storageKey)]⟩
    usageRow

def lastConnected (db : Database) (endpoint : EndpointKey) : Option Int64 :=
  queryRow db
    ⟨["last_connected_at"], "docker_cache_metadata",
      [("endpoint_key", .text endpoint.storageKey)]⟩
    fun
      | [.integer at_] => some at_
      | _ => none

/-! ## The cache and its threads -/

/-- The calls that write. The payload of `put` is `serde_json::to_vec(value).ok()`. -/
inductive CacheCall where
  | put (table : String) (endpoint : EndpointKey) (key : String) (payload : Option Bytes)
  | putUsage (endpoint : EndpointKey) (volumeName : String)
      (sizeBytes refCount : Option UInt64)
  | removeKey (table : String) (endpoint : EndpointKey) (key : String)
  | clearEndpoint (endpoint : EndpointKey)
  | recordConnection (endpoint : EndpointKey) (apiVersion : Option String)
  | flush
deriving DecidableEq, Repr

/-- The database, the writes in the channel, those the flusher has collected, and the
statements of threads that have not yet had the connection. -/
structure PersistentCache where
  db : Database
  channel : List PendingWrite
  batch : List PendingWrite
  threads : List Statement

/-- `receive` is `recv` or `recv_timeout` of the flusher with a write, `timeout` its flush
of the batch, `thread` a spawned thread that gets the connection. -/
inductive CacheAction where
  | call (c : CacheCall) (now : Int64)
  | receive
  | timeout
  | thread (statement : Statement)

namespace PersistentCache

def opened (db : Database) : PersistentCache := ⟨db, [], [], []⟩

def enqueue (s : PersistentCache) (w : PendingWrite) : PersistentCache :=
  { s with channel := s.channel ++ [w] }

def perform (s : PersistentCache) (now : Int64) : CacheCall → PersistentCache
  | .put table endpoint key payload =>
    s.enqueue ⟨table, endpoint.storageKey, key, payload, now⟩
  | .putUsage endpoint volumeName sizeBytes refCount =>
    { s with threads := s.threads ++ [upsertUsage endpoint volumeName sizeBytes refCount now] }
  | .removeKey table endpoint key => { s with db := removeKey s.db table endpoint key }
  | .clearEndpoint endpoint => { s with db := clearEndpoint s.db endpoint }
  | .recordConnection endpoint apiVersion =>
    { s with threads := s.threads ++ [upsertConnection endpoint apiVersion now] }
  | .flush => s.enqueue ⟨"docker_cache_metadata", "flush-sentinel", "sentinel", none, now⟩

def step (s : PersistentCache) : CacheAction → Option PersistentCache
  | .call c now => some (s.perform now c)
  | .receive =>
    match s.channel with
    | [] => none
    | w :: rest => some { s with channel := rest, batch := s.batch ++ [w] }
  | .timeout =>
    if s.batch = [] then none
    else some { s with db := flushBatch s.db s.batch, batch := [] }
  | .thread statement =>
    if statement ∈ s.threads then
      some { s with
        db := statement.run s.db
        threads := s.threads.erase statement }
    else none

/-- The writes that have been issued and have not reached the database. -/
def pending (s : PersistentCache) : List PendingWrite := s.batch ++ s.channel

end PersistentCache

/-! ## What the payload tables stand for -/

/-- A payload by table, storage key and key. -/
abbrev Snapshot := String → String → String → Option Bytes

/-- The write puts a row for `(table, endpoint, key)` when it is flushed. -/
def PendingWrite.writes (w : PendingWrite) (table endpoint key : String) : Bool :=
  w.table == table && w.endpoint == endpoint && w.key == key && w.payload.isSome &&
    (keyColumnFor table).isSome

namespace Snapshot

def write (m : Snapshot) (w : PendingWrite) : Snapshot :=
  fun table endpoint key => if w.writes table endpoint key then w.payload else m table endpoint key

def remove (m : Snapshot) (table endpoint key : String) : Snapshot :=
  fun t e k => if t = table ∧ e = endpoint ∧ k = key then none else m t e k

def clear (m : Snapshot) (endpoint : String) : Snapshot :=
  fun t e k => if e = endpoint then none else m t e k

end Snapshot

/-- A payload table as `create_schema` declares it. -/
def payloadTable (keyColumn : String) (rows : List Row) : Table :=
  ⟨["endpoint_key", keyColumn, "payload", "updated_at"], ["endpoint_key", keyColumn], rows⟩

structure IsPayload (keyColumn : String) (row : Row) (endpoint key : String)
    (payload : Bytes) : Prop where
  endpoint : row "endpoint_key" = .text endpoint
  key : row keyColumn = .text key
  payload : row "payload" = .blob payload

/-- The rows are the graph of `m`. -/
structure Shows (keyColumn : String) (rows : List Row)
    (m : String → String → Option Bytes) : Prop where
  sound : ∀ row ∈ rows, ∃ e k b, IsPayload keyColumn row e k b ∧ m e k = some b
  complete : ∀ e k b, m e k = some b → ∃ row ∈ rows, IsPayload keyColumn row e k b

/-- The payload tables are there as declared, with the rows of the snapshot. -/
structure Represents (db : Database) (m : Snapshot) : Prop where
  shown : ∀ table keyColumn, keyColumnFor table = some keyColumn →
    ∃ rows, db table = some (payloadTable keyColumn rows) ∧ Shows keyColumn rows (m table)
  unknown : ∀ table, keyColumnFor table = none → ∀ e k, m table e k = none

variable {table : String}

theorem keyColumnFor_cases {keyColumn : String} (h : keyColumnFor table = some keyColumn) :
    keyColumn = "image_id" ∨ keyColumn = "volume_name" ∨ keyColumn = "network_id" ∨
      keyColumn = "container_id" := by
  unfold keyColumnFor at h
  split at h <;> simp_all

theorem keyColumnFor_ne {keyColumn : String} (h : keyColumnFor table = some keyColumn) :
    keyColumn ≠ "endpoint_key" ∧ keyColumn ≠ "payload" ∧ keyColumn ≠ "updated_at" ∧
      keyColumn ≠ "key" := by
  rcases keyColumnFor_cases h with rfl | rfl | rfl | rfl <;> decide

section Payloads

variable {keyColumn : String} {rows : List Row} {m : String → String → Option Bytes}

variable {row : Row} {e endpoint k key table : String} {b : Bytes}

/-- The conditions of `remove_key`, and of the conflict that the upsert looks for. -/
theorem satisfies_key_iff :
    row.satisfies [("endpoint_key", .text endpoint), (keyColumn, .text key)] = true ↔
      row "endpoint_key" = .text endpoint ∧ row keyColumn = .text key := by
  simp [Row.satisfies]

theorem ofValues_upsertPayload (h : keyColumnFor table = some keyColumn) (endpoint key : String)
    (payload : Bytes) (timestamp : Int64) : IsPayload keyColumn
      (Row.ofValues [("endpoint_key", .text endpoint), (keyColumn, .text key),
        ("payload", .blob payload), ("updated_at", .integer timestamp)])
      endpoint key payload := by
  obtain ⟨hep, hpayload, -, -⟩ := keyColumnFor_ne h
  constructor
  · simp [Row.ofValues]
  · simp [Row.ofValues, List.lookup_cons, beq_eq_false_iff_ne.mpr hep]
  · simp [Row.ofValues, List.lookup_cons, beq_eq_false_iff_ne.mpr (Ne.symm hpayload)]

theorem conflicting_upsertPayload (h : keyColumnFor table = some keyColumn) (endpoint key : String)
    (payload : Bytes) (timestamp : Int64) :
    Statement.conflicting [("endpoint_key", .text endpoint), (keyColumn, .text key),
        ("payload", .blob payload), ("updated_at", .integer timestamp)]
      ["endpoint_key", keyColumn] =
    [("endpoint_key", .text endpoint), (keyColumn, .text key)] := by
  have hrow := ofValues_upsertPayload h endpoint key payload timestamp
  simp only [Statement.conflicting, List.map_cons, List.map_nil, hrow.endpoint, hrow.key]

/-- A row of another endpoint or key does not satisfy the conditions. -/
theorem IsPayload.satisfies_iff (h : IsPayload keyColumn row e k b) :
    row.satisfies [("endpoint_key", .text endpoint), (keyColumn, .text key)] = true ↔
      e = endpoint ∧ k = key := by
  rw [satisfies_key_iff, h.endpoint, h.key]
  simp

theorem IsPayload.payloadRow_eq (h : IsPayload keyColumn row e k b) :
    payloadRow [row keyColumn, row "payload"] = some (k, b) := by
  rw [h.key, h.payload]
  rfl

theorem Shows.upsert (hm : Shows keyColumn rows m) {w : PendingWrite} {payload : Bytes}
    (hcolumn : keyColumnFor w.table = some keyColumn) :
    Shows keyColumn ((upsertPayload w keyColumn payload).onRows rows)
      fun e k => if e = w.endpoint ∧ k = w.key then some payload else m e k := by
  have hnew := ofValues_upsertPayload hcolumn w.endpoint w.key payload w.timestamp
  have hkey := conflicting_upsertPayload hcolumn w.endpoint w.key payload w.timestamp
  constructor
  · intro row hrow
    rcases Statement.mem_upsert hrow with ⟨hold, hsat⟩ | hset
    · obtain ⟨e, k, b, hb, hmb⟩ := hm.sound row hold
      refine ⟨e, k, b, hb, ?_⟩
      rw [hkey] at hsat
      rw [if_neg]
      · exact hmb
      · intro heq
        rw [hb.satisfies_iff.mpr heq] at hsat
        cases hsat
    · refine ⟨w.endpoint, w.key, payload, ⟨?_, ?_, ?_⟩, if_pos ⟨rfl, rfl⟩⟩
      · exact (hset _ (by simp)).trans hnew.endpoint
      · exact (hset _ (by simp)).trans hnew.key
      · exact (hset _ (by simp)).trans hnew.payload
  · intro e k b hmb
    split at hmb
    next heq =>
      obtain ⟨rfl, rfl⟩ := heq
      cases hmb
      obtain ⟨row, hrow, hset⟩ := Statement.exists_mem_upsert w.table rows
      refine ⟨row, hrow, ⟨?_, ?_, ?_⟩⟩
      · exact (hset _ (by simp)).trans hnew.endpoint
      · exact (hset _ (by simp)).trans hnew.key
      · exact (hset _ (by simp)).trans hnew.payload
    next hne =>
      obtain ⟨row, hrow, hb⟩ := hm.complete e k b hmb
      refine ⟨row, Statement.mem_upsert_of_mem hrow ?_, hb⟩
      rw [hkey, Bool.eq_false_iff]
      exact fun hsat => hne (hb.satisfies_iff.mp hsat)

theorem Shows.delete (hm : Shows keyColumn rows m) {conditions : List (String × Value)}
    {erased : String → String → Prop} [∀ e k, Decidable (erased e k)]
    (herased : ∀ row e k b, IsPayload keyColumn row e k b →
      (row.satisfies conditions = true ↔ erased e k)) :
    Shows keyColumn ((Statement.delete table conditions).onRows rows)
      fun e k => if erased e k then none else m e k := by
  constructor
  · intro row hrow
    obtain ⟨hrow, hkept⟩ := List.mem_filter.mp hrow
    obtain ⟨e, k, b, hb, hmb⟩ := hm.sound row hrow
    refine ⟨e, k, b, hb, ?_⟩
    rw [if_neg]
    · exact hmb
    · intro he
      simp [(herased row e k b hb).mpr he] at hkept
  · intro e k b hmb
    split at hmb
    next => cases hmb
    next hkept =>
      obtain ⟨row, hrow, hb⟩ := hm.complete e k b hmb
      refine ⟨row, List.mem_filter.mpr ⟨hrow, ?_⟩, hb⟩
      rw [Bool.not_eq_true', Bool.eq_false_iff]
      exact fun hsat => hkept ((herased row e k b hb).mp hsat)

end Payloads

namespace Represents

variable {db : Database} {m : Snapshot}

theorem run_other (h : Represents db m) {statement : Statement}
    (htable : keyColumnFor statement.table = none) : Represents (statement.run db) m := by
  constructor
  · intro table keyColumn hcolumn
    have hne : table ≠ statement.table := by
      rintro rfl
      rw [htable] at hcolumn
      cases hcolumn
    rw [Statement.run_apply_ne hne]
    exact h.shown table keyColumn hcolumn
  · exact h.unknown

theorem run_payload (h : Represents db m) (statement : Statement) {keyColumn : String}
    (hcolumn : keyColumnFor statement.table = some keyColumn)
    {m' : String → String → Option Bytes}
    (hprepare : ∀ rows, statement.prepare (payloadTable keyColumn rows) = .ok ())
    (hrows : ∀ rows, Shows keyColumn rows (m statement.table) →
      Shows keyColumn (statement.onRows rows) m') :
    Represents (statement.run db) (Function.update m statement.table m') := by
  constructor
  · intro table column hc
    by_cases htable : table = statement.table
    · subst htable
      cases hcolumn.symm.trans hc
      obtain ⟨rows, hdb, hshows⟩ := h.shown _ _ hcolumn
      refine ⟨statement.onRows rows, ?_, ?_⟩
      · rw [Statement.run_apply_self, hdb, Option.map_some, Statement.onTable, hprepare]
        rfl
      · rw [Function.update_self]
        exact hrows rows hshows
    · rw [Statement.run_apply_ne htable, Function.update_of_ne htable]
      exact h.shown table column hc
  · intro table hnone
    have hne : table ≠ statement.table := by
      rintro rfl
      rw [hcolumn] at hnone
      cases hnone
    rw [Function.update_of_ne hne]
    exact h.unknown table hnone

theorem write_of_column {w : PendingWrite} {keyColumn : String} {payload : Bytes}
    (hcolumn : keyColumnFor w.table = some keyColumn) (hpayload : w.payload = some payload) :
    m.write w = Function.update m w.table
      fun e k => if e = w.endpoint ∧ k = w.key then some payload else m w.table e k := by
  funext table e k
  by_cases htable : table = w.table
  · subst htable
    simp only [Snapshot.write, PendingWrite.writes, hcolumn, hpayload, Function.update_self]
    by_cases hkey : e = w.endpoint ∧ k = w.key
    · obtain ⟨rfl, rfl⟩ := hkey
      simp
    · rw [if_neg hkey, if_neg]
      intro hw
      simp only [beq_self_eq_true, Bool.true_and, Option.isSome_some, Bool.and_true,
        Bool.and_eq_true, beq_iff_eq] at hw
      exact hkey ⟨hw.1.symm, hw.2.symm⟩
  · rw [Function.update_of_ne htable, Snapshot.write, if_neg]
    simp [PendingWrite.writes, Ne.symm htable]

/-- **A flushed write is the map's update.** -/
theorem flushWrite (h : Represents db m) (w : PendingWrite) :
    Represents (flushWrite db w) (m.write w) := by
  unfold Cache.flushWrite
  split
  next hpayload =>
    have hsame : m.write w = m := by
      funext table e k
      simp [Snapshot.write, PendingWrite.writes, hpayload]
    rw [hsame]
    exact h
  next payload hpayload =>
    split
    next hcolumn =>
      have hsame : m.write w = m := by
        funext table e k
        rw [Snapshot.write, if_neg]
        intro hw
        simp only [PendingWrite.writes, Bool.and_eq_true, beq_iff_eq] at hw
        simp [← hw.1.1.1.1, hcolumn] at hw
      rw [hsame]
      exact h
    next keyColumn hcolumn =>
      rw [write_of_column hcolumn hpayload]
      apply h.run_payload (upsertPayload w keyColumn payload) hcolumn
      · intro rows
        simp [Statement.prepare, Statement.named, upsertPayload, payloadTable,
          Statement.constraintOf]
      · intro rows hshows
        exact hshows.upsert hcolumn

theorem flushBatch (h : Represents db m) (batch : List PendingWrite) :
    Represents (flushBatch db batch) (batch.foldl Snapshot.write m) := by
  induction batch generalizing db m with
  | nil => exact h
  | cons w batch ih => exact ih (h.flushWrite w)

/-- **`remove_key` is the map's erasure.** -/
theorem removeKey (h : Represents db m) (table : String) (endpoint : EndpointKey)
    (key : String) :
    Represents (removeKey db table endpoint key) (m.remove table endpoint.storageKey key) := by
  unfold Cache.removeKey
  split
  next hcolumn =>
    have hsame : m.remove table endpoint.storageKey key = m := by
      funext t e k
      unfold Snapshot.remove
      split
      next heq => rw [heq.1, h.unknown table hcolumn]
      next => rfl
    rw [hsame]
    exact h
  next keyColumn hcolumn =>
    have hupdate : m.remove table endpoint.storageKey key = Function.update m table
        fun e k => if e = endpoint.storageKey ∧ k = key then none else m table e k := by
      funext t e k
      by_cases ht : t = table
      · subst ht
        simp [Snapshot.remove]
      · simp [Snapshot.remove, ht]
    rw [hupdate]
    apply h.run_payload (deleteKey table keyColumn endpoint.storageKey key) hcolumn
    · intro rows
      simp [Statement.prepare, Statement.named, deleteKey, payloadTable,
        Statement.constraintOf]
    · intro rows hshows
      exact hshows.delete fun row e k b hb => hb.satisfies_iff

/-- One turn of the loop of `clear_endpoint`. -/
theorem clearTable (h : Represents db m) (endpoint table : String) :
    Represents ((Statement.delete table [("endpoint_key", .text endpoint)]).run db)
      fun t e k => if t = table ∧ e = endpoint then none else m t e k := by
  cases hcolumn : keyColumnFor table with
  | none =>
    have hsame : (fun t e k => if t = table ∧ e = endpoint then none else m t e k) = m := by
      funext t e k
      split
      next heq => rw [heq.1, h.unknown table hcolumn]
      next => rfl
    rw [hsame]
    exact h.run_other hcolumn
  | some keyColumn =>
    have hupdate : (fun t e k => if t = table ∧ e = endpoint then none else m t e k) =
        Function.update m table
          fun e k => if e = endpoint then none else m table e k := by
      funext t e k
      by_cases ht : t = table
      · subst ht
        simp
      · simp [ht]
    rw [hupdate]
    apply h.run_payload (.delete table [("endpoint_key", .text endpoint)]) hcolumn
    · intro rows
      simp [Statement.prepare, Statement.named, payloadTable, Statement.constraintOf]
    · intro rows hshows
      apply hshows.delete
      intro row e k b hb
      simp [Row.satisfies, hb.endpoint]

theorem clearTables (endpoint : String) (tables : List String) {db : Database}
    {m : Snapshot} (h : Represents db m) :
    Represents
      (tables.foldl (fun db table =>
        (Statement.delete table [("endpoint_key", .text endpoint)]).run db) db)
      fun t e k => if t ∈ tables ∧ e = endpoint then none else m t e k := by
  induction tables generalizing db m with
  | nil => simpa using h
  | cons table tables ih =>
    have hrest := ih (h.clearTable endpoint table)
    have hsame : (fun t e k => if t ∈ table :: tables ∧ e = endpoint then none
          else m t e k) =
        fun t e k => if t ∈ tables ∧ e = endpoint then none
          else if t = table ∧ e = endpoint then none else m t e k := by
      funext t e k
      by_cases he : e = endpoint <;> by_cases ht : t = table <;> by_cases hmem : t ∈ tables <;>
        simp [he, ht, hmem]
    rw [hsame]
    exact hrest

theorem mem_clearedTables {table keyColumn : String}
    (h : keyColumnFor table = some keyColumn) : table ∈ clearedTables := by
  unfold keyColumnFor at h
  split at h <;> simp_all [clearedTables]

/-- **`clear_endpoint` erases the endpoint from the map.** -/
theorem clearEndpoint (h : Represents db m) (endpoint : EndpointKey) :
    Represents (clearEndpoint db endpoint) (m.clear endpoint.storageKey) := by
  have hsame : m.clear endpoint.storageKey =
      fun t e k => if t ∈ clearedTables ∧ e = endpoint.storageKey then none else m t e k := by
    funext t e k
    cases hcolumn : keyColumnFor t with
    | none => simp [Snapshot.clear, h.unknown t hcolumn]
    | some keyColumn => simp [Snapshot.clear, mem_clearedTables hcolumn]
  rw [hsame]
  exact h.clearTables endpoint.storageKey clearedTables

theorem createSchema : Represents (createSchema fun _ => none) fun _ _ _ => none := by
  constructor
  · intro table keyColumn hcolumn
    refine ⟨[], ?_, ⟨by simp, by simp⟩⟩
    unfold keyColumnFor at hcolumn
    split at hcolumn
    case h_6 => cases hcolumn
    all_goals
      cases hcolumn
      rfl
  · intro table _ e k
    rfl

section Reads

variable {T : Type} (decode : Bytes → Option T)

variable {table : String}

/-- **The bulk read is the graph of the map.** -/
theorem mem_hydrate_iff (h : Represents db m) {keyColumn : String}
    (hcolumn : keyColumnFor table = some keyColumn) (endpoint : EndpointKey) (key : String)
    (value : T) : (key, value) ∈ hydrate decode db table endpoint ↔
      ∃ payload, m table endpoint.storageKey key = some payload ∧
        decode payload = some value := by
  obtain ⟨rows, hdb, hshows⟩ := h.shown table keyColumn hcolumn
  have hquery : Select.query db
      ⟨[keyColumn, "payload"], table, [("endpoint_key", .text endpoint.storageKey)]⟩ =
      .ok ((rows.filter fun row =>
        row.satisfies [("endpoint_key", .text endpoint.storageKey)]).map
          fun row => [row keyColumn, row "payload"]) := by
    simp [Select.query, hdb, payloadTable]
  have hmap : queryMap db
      ⟨[keyColumn, "payload"], table, [("endpoint_key", .text endpoint.storageKey)]⟩
        payloadRow =
      ((rows.filter fun row =>
        row.satisfies [("endpoint_key", .text endpoint.storageKey)]).map
          fun row => [row keyColumn, row "payload"]).filterMap payloadRow := by
    rw [queryMap, hquery]
    show (List.mapM payloadRow _).getD [] = _
    rw [mapM_eq_some_filterMap]
    · rfl
    intro values hvalues
    obtain ⟨row, hrow, rfl⟩ := List.mem_map.mp hvalues
    obtain ⟨e, k, b, hb, -⟩ := hshows.sound row (List.mem_filter.mp hrow).1
    rw [hb.payloadRow_eq]
    rfl
  simp only [hydrate, hcolumn, hmap, List.mem_filterMap, List.mem_map, List.mem_filter]
  constructor
  · rintro ⟨⟨k, b⟩, ⟨values, ⟨row, ⟨hrow, hsat⟩, rfl⟩, hpayload⟩, hdecode⟩
    obtain ⟨e, k', b', hb, hmb⟩ := hshows.sound row hrow
    cases hb.payloadRow_eq.symm.trans hpayload
    obtain ⟨v, hv, heq⟩ := Option.map_eq_some_iff.mp hdecode
    cases heq
    have he : e = endpoint.storageKey := by
      simpa [Row.satisfies, hb.endpoint] using hsat
    exact ⟨b, he ▸ hmb, hv⟩
  · rintro ⟨payload, hmb, hdecode⟩
    obtain ⟨row, hrow, hb⟩ := hshows.complete _ _ _ hmb
    refine ⟨(key, payload), ⟨_, ⟨row, ⟨hrow, ?_⟩, rfl⟩, ?_⟩, ?_⟩
    · simp [Row.satisfies, hb.endpoint]
    · exact hb.payloadRow_eq
    · simp [hdecode]

theorem get_eq_none (h : Represents db m) {keyColumn : String}
    (hcolumn : keyColumnFor table = some keyColumn) (endpoint : EndpointKey) (key : String) :
    get decode db table endpoint key = none := by
  obtain ⟨rows, hdb, -⟩ := h.shown table keyColumn hcolumn
  obtain ⟨-, -, -, hkey⟩ := keyColumnFor_ne hcolumn
  simp [get, queryRow, Select.query, hdb, payloadTable, Ne.symm hkey]

end Reads

end Represents

/-! ## Point reads and bulk reads -/

/-- A `put` that has been flushed, or a `remove_key`. -/
inductive TableCall (T : Type) where
  | put (table : String) (endpoint : EndpointKey) (key : String) (value : T) (now : Int64)
  | removeKey (table : String) (endpoint : EndpointKey) (key : String)
deriving DecidableEq, Repr

namespace TableCall

variable {T : Type} (encode : T → Option Bytes)

def apply (db : Database) : TableCall T → Database
  | put table endpoint key value now =>
    flushBatch db [⟨table, endpoint.storageKey, key, encode value, now⟩]
  | removeKey table endpoint key => Cache.removeKey db table endpoint key

def replay (history : List (TableCall T)) : Database :=
  history.foldl (apply encode) (createSchema fun _ => none)

/-- The call is about the row of `(table, endpoint, key)`. A value that does not serialize
is not put. -/
def concerns (table : String) (endpoint : EndpointKey) (key : String) :
    TableCall T → Bool
  | put t e k value _ =>
    t == table && e.storageKey == endpoint.storageKey && k == key && (encode value).isSome
  | removeKey t e k => t == table && e.storageKey == endpoint.storageKey && k == key

/-- The last call about the row is a `put`. -/
def putLast (history : List (TableCall T)) (table : String) (endpoint : EndpointKey)
    (key : String) : Bool :=
  match (history.filter (concerns encode table endpoint key)).getLast? with
  | some (put _ _ _ _ _) => true
  | _ => false

def onSnapshot (m : Snapshot) : TableCall T → Snapshot
  | put table endpoint key value now =>
    m.write ⟨table, endpoint.storageKey, key, encode value, now⟩
  | removeKey table endpoint key => m.remove table endpoint.storageKey key

theorem represents_replay (history : List (TableCall T)) :
    Represents (replay encode history)
      (history.foldl (onSnapshot encode) fun _ _ _ => none) := by
  have hfold : ∀ (calls : List (TableCall T)) {db : Database} {m : Snapshot},
      Represents db m → Represents (calls.foldl (apply encode) db)
        (calls.foldl (onSnapshot encode) m) := by
    intro calls
    induction calls with
    | nil => exact fun h => h
    | cons c calls ih =>
      intro db m h
      apply ih
      cases c with
      | put table endpoint key value now => exact h.flushBatch [_]
      | removeKey table endpoint key => exact h.removeKey table endpoint key
  exact hfold history Represents.createSchema

theorem getLast_filter_concat {α : Type} (p : α → Bool) (as : List α) (a : α) :
    ((as ++ [a]).filter p).getLast? =
      if p a then some a else (as.filter p).getLast? := by
  rw [List.filter_append]
  by_cases ha : p a = true <;> simp [ha]

/-- What is stored for the row is what the last call about it has put there. -/
theorem snapshot_eq {table keyColumn : String} (hcolumn : keyColumnFor table = some keyColumn)
    (history : List (TableCall T)) (endpoint : EndpointKey) (key : String) :
    history.foldl (onSnapshot encode) (fun _ _ _ => none) table endpoint.storageKey key =
      match (history.filter (concerns encode table endpoint key)).getLast? with
      | some (put _ _ _ value _) => encode value
      | _ => none := by
  induction history using List.reverseRecOn with
  | nil => rfl
  | append_singleton history c ih =>
    rw [List.foldl_append, List.foldl_cons, List.foldl_nil, getLast_filter_concat]
    cases c with
    | put t e k value now =>
      have hsame : (⟨t, e.storageKey, k, encode value, now⟩ : PendingWrite).writes table
          endpoint.storageKey key =
          concerns encode table endpoint key (put t e k value now) := by
        simp [PendingWrite.writes, concerns, hcolumn]
      rw [onSnapshot, Snapshot.write, hsame, ih]
      split <;> rfl
    | removeKey t e k =>
      have hsame : concerns encode table endpoint key (removeKey t e k) = true ↔
          table = t ∧ endpoint.storageKey = e.storageKey ∧ key = k := by
        simp only [concerns, Bool.and_eq_true, beq_iff_eq, and_assoc]
        constructor
        · rintro ⟨rfl, he, rfl⟩
          exact ⟨rfl, he.symm, rfl⟩
        · rintro ⟨rfl, he, rfl⟩
          exact ⟨rfl, he.symm, rfl⟩
      rw [onSnapshot, Snapshot.remove, ih]
      by_cases heq : table = t ∧ endpoint.storageKey = e.storageKey ∧ key = k
      · rw [if_pos heq, if_pos (hsame.mpr heq)]
      · rw [if_neg heq, if_neg (mt hsame.mp heq)]

/-- **When the point read agrees with the bulk read.** After any sequence of flushed puts
and removals, exactly for the rows whose last call is not a `put`. -/
theorem get_agrees_iff {decode : Bytes → Option T}
    (hround : ∀ value payload, encode value = some payload → decode payload = some value)
    {table keyColumn : String} (hcolumn : keyColumnFor table = some keyColumn)
    (history : List (TableCall T)) (endpoint : EndpointKey) (key : String) :
    (∀ value, get decode (replay encode history) table endpoint key = some value ↔
        (key, value) ∈ hydrate decode (replay encode history) table endpoint) ↔
      putLast encode history table endpoint key = false := by
  have hrep := represents_replay encode history
  have hhydrate := hrep.mem_hydrate_iff decode hcolumn endpoint key
  rw [snapshot_eq encode hcolumn history endpoint key] at hhydrate
  simp only [hrep.get_eq_none decode hcolumn, hhydrate, putLast]
  split
  next t e k value now hlast =>
    -- the put is in the table, since it serializes
    have hserial : concerns encode table endpoint key (put t e k value now) = true :=
      (List.mem_filter.mp (List.mem_of_getLast? hlast)).2
    obtain ⟨payload, hpayload⟩ : ∃ payload, encode value = some payload := by
      apply Option.isSome_iff_exists.mp
      simp only [concerns, Bool.and_eq_true] at hserial
      exact hserial.2
    constructor
    · intro h
      have := (h value).mpr ⟨payload, hpayload, hround value payload hpayload⟩
      cases this
    · intro h
      cases h
  next => simp

/-- JSON of a boolean. -/
def boolJson (b : Bool) : Option Bytes := some (if b then "true" else "false").toUTF8.toList

def boolOfJson (payload : Bytes) : Option Bool :=
  if payload = "true".toUTF8.toList then some true
  else if payload = "false".toUTF8.toList then some false
  else none

def localEndpoint : EndpointKey := ⟨"unix:///var/run/docker.sock", none, some "default"⟩

/-- A row that was put and removed, beside one that stays. -/
def putAndRemoved : List (TableCall Bool) :=
  [.put "image_details" localEndpoint "sha256:abc" true 0,
    .put "image_details" localEndpoint "sha256:def" false 0,
    .removeKey "image_details" localEndpoint "sha256:abc"]

/-- The result for such a history. -/
theorem removed_row_read_alike :
    (∀ value, get boolOfJson (replay boolJson putAndRemoved) "image_details" localEndpoint
        "sha256:abc" = some value ↔
      ("sha256:abc", value) ∈
        hydrate boolOfJson (replay boolJson putAndRemoved) "image_details" localEndpoint) ∧
      hydrate boolOfJson (replay boolJson putAndRemoved) "image_details" localEndpoint =
        [("sha256:def", false)] := by
  refine ⟨?_, by decide +kernel⟩
  apply (get_agrees_iff boolJson _ (by rfl) putAndRemoved localEndpoint "sha256:abc").mpr
  · decide +kernel
  · intro value payload hpayload
    cases hpayload
    cases value <;> decide +kernel

/-- A row that `hydrate` returns and `get` does not find. -/
theorem stored_row_not_got :
    hydrate boolOfJson
        (replay boolJson [.put "image_details" localEndpoint "sha256:abc" true 0])
        "image_details" localEndpoint = [("sha256:abc", true)] ∧
      get boolOfJson
        (replay boolJson [.put "image_details" localEndpoint "sha256:abc" true 0])
        "image_details" localEndpoint "sha256:abc" = none := by
  decide +kernel

end TableCall

end TuxStack.Cache
