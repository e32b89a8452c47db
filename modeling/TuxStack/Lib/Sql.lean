import Mathlib.Data.List.Basic

/-!
# Tables, upserts and deletes

As much of SQL as a keyed store needs. A table has declared columns and a primary key; a
statement that names a column or a table that is not there is an error and changes
nothing. Conditions are conjunctions of `column = value`, and `NULL` equals nothing.

`Statement.Within c v` says of a statement that it is about the rows with `c = v` only.
Rows outside cannot tell whether it was run: `run_without_of_within` and
`run_without_of_ne` say so for the database less the rows of one tenant, `query_without`
for what the other tenants read.
-/

namespace TuxStack.Sql

inductive Value where
  | null
  | integer (n : Int64)
  | text (s : String)
  | blob (bytes : List UInt8)
deriving DecidableEq, Repr

/-- The values of a row by column. -/
abbrev Row := String → Value

structure Table where
  columns : List String
  primaryKey : List String
  rows : List Row

/-- Tables by name. -/
abbrev Database := String → Option Table

inductive SqlError where
  | noSuchTable (table : String)
  | noSuchColumn (column : String)
  | noSuchConstraint (columns : List String)
deriving DecidableEq, Repr

namespace Row

def satisfies (row : Row) (conditions : List (String × Value)) : Bool :=
  conditions.all fun condition => condition.2 != .null && row condition.1 == condition.2

/-- The row with the given values and `NULL` elsewhere. -/
def ofValues (values : List (String × Value)) : Row :=
  fun column => (values.lookup column).getD .null

/-- `SET c = excluded.c` for the given columns. -/
def overwrite (row excluded : Row) (columns : List String) : Row :=
  fun column => if column ∈ columns then excluded column else row column

variable {row : Row}

theorem satisfies_iff {conditions : List (String × Value)} : row.satisfies conditions = true ↔
      ∀ condition ∈ conditions, condition.2 ≠ .null ∧ row condition.1 = condition.2 := by
  simp [satisfies]

@[simp] theorem overwrite_of_mem {excluded : Row} {columns : List String} {c : String}
    (h : c ∈ columns) : row.overwrite excluded columns c = excluded c := by
  simp [overwrite, h]

@[simp] theorem overwrite_of_not_mem {excluded : Row} {columns : List String} {c : String}
    (h : c ∉ columns) : row.overwrite excluded columns c = row c := by
  simp [overwrite, h]

end Row

inductive Statement where
  /-- `INSERT INTO table … ON CONFLICT (conflict) DO UPDATE SET` the columns `updates`. -/
  | upsert (table : String) (values : List (String × Value)) (conflict updates : List String)
  /-- `DELETE FROM table WHERE` the conditions hold. -/
  | delete (table : String) (conditions : List (String × Value))
deriving DecidableEq, Repr

namespace Statement

def table : Statement → String
  | upsert table _ _ _ => table
  | delete table _ => table

def named : Statement → List String
  | upsert _ values _ updates => values.map Prod.fst ++ updates
  | delete _ conditions => conditions.map Prod.fst

/-- The values of the row that conflicts with the row of an upsert. -/
def conflicting (values : List (String × Value)) (conflict : List String) :
    List (String × Value) :=
  conflict.map fun column => (column, Row.ofValues values column)

/-- What an upsert makes of a row: the update when the row conflicts. -/
def updated (values : List (String × Value)) (conflict updates : List String) (row : Row) :
    Row :=
  if row.satisfies (conflicting values conflict) then
    row.overwrite (Row.ofValues values) updates
  else row

/-- What the statement does to the rows of its table. -/
def onRows : Statement → List Row → List Row
  | upsert _ values conflict updates, rows =>
    if rows.any fun row => row.satisfies (conflicting values conflict) then
      rows.map (updated values conflict updates)
    else rows ++ [Row.ofValues values]
  | delete _ conditions, rows => rows.filter fun row => !row.satisfies conditions

/-- `ON CONFLICT` needs a matching constraint. -/
def constraintOf : Statement → Table → Except SqlError Unit
  | upsert _ _ conflict _, t =>
    if conflict = t.primaryKey then .ok () else .error (.noSuchConstraint conflict)
  | delete _ _, _ => .ok ()

def prepare (statement : Statement) (t : Table) : Except SqlError Unit :=
  match statement.named.find? (· ∉ t.columns) with
  | some column => .error (.noSuchColumn column)
  | none => statement.constraintOf t

def execute (db : Database) (statement : Statement) : Except SqlError Database :=
  match db statement.table with
  | none => .error (.noSuchTable statement.table)
  | some t =>
    (statement.prepare t).map fun _ =>
      Function.update db statement.table (some { t with rows := statement.onRows t.rows })

def run (db : Database) (statement : Statement) : Database :=
  match statement.execute db with
  | .ok db' => db'
  | .error _ => db

/-- The table after the statement, as the other tables stay. -/
def onTable (statement : Statement) (t : Table) : Table :=
  match statement.prepare t with
  | .ok _ => { t with rows := statement.onRows t.rows }
  | .error _ => t

theorem run_apply (db : Database) (statement : Statement) (name : String) :
    statement.run db name =
      if name = statement.table then (db name).map statement.onTable else db name := by
  unfold run execute
  by_cases hname : name = statement.table
  · subst hname
    cases hdb : db statement.table with
    | none => simp [hdb]
    | some t => cases hprepare : statement.prepare t <;> simp [hdb, hprepare, onTable, Except.map]
  · cases hdb : db statement.table with
    | none => simp [hname]
    | some t => cases hprepare : statement.prepare t <;> simp [hprepare, hname, Except.map]

theorem run_apply_self (db : Database) (statement : Statement) :
    statement.run db statement.table = (db statement.table).map statement.onTable := by
  simp [run_apply]

theorem run_apply_ne {db : Database} {statement : Statement} {name : String}
    (h : name ≠ statement.table) : statement.run db name = db name := by
  simp [run_apply, h]

end Statement

/-- `SELECT columns FROM table WHERE` the conditions hold. -/
structure Select where
  columns : List String
  table : String
  conditions : List (String × Value)

namespace Select

def query (db : Database) (select : Select) : Except SqlError (List (List Value)) :=
  match db select.table with
  | none => .error (.noSuchTable select.table)
  | some t =>
    match (select.columns ++ select.conditions.map Prod.fst).find? (· ∉ t.columns) with
    | some column => .error (.noSuchColumn column)
    | none =>
      .ok ((t.rows.filter fun row => row.satisfies select.conditions).map
        fun row => select.columns.map row)

end Select

/-! ## The rows after an upsert -/

namespace Statement

variable {values : List (String × Value)} {conflict updates : List String}

variable {row : Row} {c : String}

theorem eq_of_satisfies {conditions : List (String × Value)} {v : Value}
    (hmem : (c, v) ∈ conditions) (h : row.satisfies conditions = true) : row c = v :=
  (Row.satisfies_iff.mp h _ hmem).2

theorem eq_of_conflicting (hmem : c ∈ conflict)
    (h : row.satisfies (conflicting values conflict) = true) : row c = Row.ofValues values c := by
  apply eq_of_satisfies _ h
  exact List.mem_map.mpr ⟨c, hmem, rfl⟩

theorem updated_of_not_mem (h : c ∉ updates) (row : Row) :
    updated values conflict updates row c = row c := by
  unfold updated
  split
  · exact Row.overwrite_of_not_mem h
  · rfl

theorem updated_of_conflicting (hsat : row.satisfies (conflicting values conflict) = true)
    (hc : c ∈ conflict ∨ c ∈ updates) :
    updated values conflict updates row c = Row.ofValues values c := by
  unfold updated
  rw [if_pos hsat]
  by_cases hu : c ∈ updates
  · exact Row.overwrite_of_mem hu
  · rw [Row.overwrite_of_not_mem hu]
    exact eq_of_conflicting (hc.resolve_right hu) hsat

/-- A row after an upsert was there before and does not conflict, or has the values that
the upsert sets. -/
theorem mem_upsert {table : String} {rows : List Row}
    (h : row ∈ (upsert table values conflict updates).onRows rows) :
    (row ∈ rows ∧ row.satisfies (conflicting values conflict) = false) ∨
      ∀ c, c ∈ conflict ∨ c ∈ updates → row c = Row.ofValues values c := by
  simp only [onRows] at h
  split at h
  next =>
    obtain ⟨old, hold, rfl⟩ := List.mem_map.mp h
    by_cases hsat : old.satisfies (conflicting values conflict) = true
    · exact .inr fun c hc => updated_of_conflicting hsat hc
    · left
      rw [updated, if_neg hsat]
      exact ⟨hold, by simpa using hsat⟩
  next hnone =>
    rcases List.mem_append.mp h with hrow | hrow
    · left
      refine ⟨hrow, ?_⟩
      have := List.any_eq_false.mp (by simpa using hnone) row hrow
      simpa using this
    · right
      intro c _
      rw [List.mem_singleton.mp hrow]

theorem mem_upsert_of_mem {table : String} {rows : List Row} (h : row ∈ rows)
    (hsat : row.satisfies (conflicting values conflict) = false) :
    row ∈ (upsert table values conflict updates).onRows rows := by
  simp only [onRows]
  split
  · exact List.mem_map.mpr ⟨row, h, by simp [updated, hsat]⟩
  · exact List.mem_append_left _ h

/-- After an upsert there is a row with the values that it sets. -/
theorem exists_mem_upsert (table : String) (rows : List Row) :
    ∃ row ∈ (upsert table values conflict updates).onRows rows,
      ∀ c, c ∈ conflict ∨ c ∈ updates → row c = Row.ofValues values c := by
  simp only [onRows]
  split
  next hany =>
    obtain ⟨old, hold, hsat⟩ := List.any_eq_true.mp hany
    refine ⟨updated values conflict updates old, List.mem_map_of_mem hold, ?_⟩
    exact fun c hc => updated_of_conflicting hsat hc
  next =>
    exact ⟨Row.ofValues values, List.mem_append_right _ (List.mem_singleton.mpr rfl),
      fun _ _ => rfl⟩

end Statement

/-! ## Rows of one tenant -/

def Table.without (t : Table) (c : String) (v : Value) : Table :=
  { t with rows := t.rows.filter fun row => row c != v }

/-- The database less the rows with `c = v`. -/
def Database.without (db : Database) (c : String) (v : Value) : Database :=
  fun name => (db name).map fun t => t.without c v

namespace Statement

/-- The statement is about rows with `c = v` only, and leaves them there. -/
def Within (c : String) (v : Value) : Statement → Prop
  | upsert _ values conflict updates =>
    Row.ofValues values c = v ∧ c ∈ conflict ∧ c ∉ updates
  | delete _ conditions => (c, v) ∈ conditions

variable {c : String} {statement : Statement} {v v' : Value}

theorem filter_onRows_of_within (h : statement.Within c v) (rows : List Row) :
    (statement.onRows rows).filter (fun row => row c != v) =
      rows.filter fun row => row c != v := by
  cases statement with
  | upsert table values conflict updates =>
    obtain ⟨hnew, hmem, hkept⟩ := h
    simp only [onRows]
    split
    · have hsame : ∀ row ∈ rows.filter (fun row => row c != v),
          updated values conflict updates row = row := by
        intro row hrow
        have hne : row c ≠ v := by simpa using (List.mem_filter.mp hrow).2
        apply if_neg
        intro hsat
        exact hne ((eq_of_conflicting hmem hsat).trans hnew)
      simp only [List.filter_map, Function.comp_def, updated_of_not_mem hkept]
      rw [List.map_congr_left hsame, List.map_id']
    · simp [hnew]
  | delete table conditions =>
    simp only [onRows, List.filter_filter]
    apply List.filter_congr
    intro row _
    by_cases hrow : row.satisfies conditions = true
    · simp [eq_of_satisfies h hrow]
    · simp [hrow]

/-- The statement does the same when the rows of another tenant are left out. -/
theorem filter_onRows_of_ne (h : statement.Within c v') (hne : v' ≠ v) (rows : List Row) :
    (statement.onRows rows).filter (fun row => row c != v) =
      statement.onRows (rows.filter fun row => row c != v) := by
  cases statement with
  | upsert table values conflict updates =>
    obtain ⟨hnew, hmem, hkept⟩ := h
    have hany : ((rows.filter fun row => row c != v).any
        fun row => row.satisfies (conflicting values conflict)) =
        rows.any fun row => row.satisfies (conflicting values conflict) := by
      rw [List.any_filter]
      congr 1
      funext row
      by_cases hrow : row.satisfies (conflicting values conflict) = true
      · have hc : row c = v' := (eq_of_conflicting hmem hrow).trans hnew
        simp [hrow, hc, hne]
      · simp [hrow]
    simp only [onRows, hany]
    split
    · simp only [List.filter_map, Function.comp_def, updated_of_not_mem hkept]
    · simp [hnew, hne]
  | delete table conditions =>
    simp only [onRows, List.filter_filter]
    apply List.filter_congr
    intro row _
    exact Bool.and_comm _ _

theorem prepare_without (statement : Statement) (t : Table) (c : String) (v : Value) :
    statement.prepare (t.without c v) = statement.prepare t := by
  cases statement <;> rfl

theorem without_onTable_of_within (h : statement.Within c v) (t : Table) :
    (statement.onTable t).without c v = t.without c v := by
  unfold onTable
  split
  · simp only [Table.without, filter_onRows_of_within h]
  · rfl

theorem without_onTable_of_ne (h : statement.Within c v') (hne : v' ≠ v) (t : Table) :
    (statement.onTable t).without c v = statement.onTable (t.without c v) := by
  unfold onTable
  rw [prepare_without]
  cases statement.prepare t with
  | ok _ => simp only [Table.without, filter_onRows_of_ne h hne]
  | error _ => rfl

/-- **A tenant's statement is invisible outside.** -/
theorem run_without_of_within (h : statement.Within c v) (db : Database) :
    (statement.run db).without c v = db.without c v := by
  funext name
  simp only [Database.without, run_apply]
  split
  · cases db name with
    | none => rfl
    | some t => exact congrArg some (without_onTable_of_within h t)
  · rfl

/-- **Other tenants' rows make no difference to a statement.** -/
theorem run_without_of_ne (h : statement.Within c v') (hne : v' ≠ v) (db : Database) :
    (statement.run db).without c v = statement.run (db.without c v) := by
  funext name
  simp only [Database.without, run_apply]
  split
  · cases db name with
    | none => rfl
    | some t => exact congrArg some (without_onTable_of_ne h hne t)
  · rfl

/-- Databases that differ in the rows of one tenant only still do after a statement of
any tenant. -/
theorem run_without_congr (h : statement.Within c v') {db db' : Database}
    (hdb : db.without c v = db'.without c v) :
    (statement.run db).without c v = (statement.run db').without c v := by
  by_cases hv : v' = v
  · subst hv
    rw [run_without_of_within h, run_without_of_within h, hdb]
  · rw [run_without_of_ne h hv, run_without_of_ne h hv, hdb]

end Statement

/-- **Other tenants' rows make no difference to what a tenant reads.** -/
theorem Select.query_without {select : Select} {c : String} {v v' : Value}
    (h : (c, v') ∈ select.conditions) (hne : v' ≠ v) (db : Database) :
    select.query (db.without c v) = select.query db := by
  unfold Select.query Database.without
  cases db select.table with
  | none => rfl
  | some t =>
    have hrows : (t.rows.filter fun row => row c != v).filter
        (fun row => row.satisfies select.conditions) =
        t.rows.filter fun row => row.satisfies select.conditions := by
      rw [List.filter_filter]
      apply List.filter_congr
      intro row _
      by_cases hrow : row.satisfies select.conditions = true
      · simp [hrow, Statement.eq_of_satisfies h hrow, hne]
      · simp [hrow]
    simp only [Option.map_some, Table.without, hrows]

end TuxStack.Sql
