/-
**A database as its tables.**

A table has columns and rows, and a row has a primary key, which is never `NULL`, and a cell for
each column. What an engine generates by itself (a moment, a counter, the random part of a token) is
one value here, so that two databases are equal when they differ in nothing else.

Main definitions:

* `Value`, `Row`, `Table`, `Catalog` — a database;
* `addColumn`, `createTable` — the changes of the schema;
* `modify` — the changes of the rows of one table;
* `fillBlank`, `insertOrIgnore`, `upsert`, `deleteKey` — what the statements do to the rows.

Main results:

* `tableColumns_addColumn` — **what a new column changes**;
* `modify_eq_some_iff`, `modify_of_fixed` — what a statement changes, and when it changes nothing;
* `fillBlank_fixed`, `insertOrIgnore_fixed`, `upsert_fixed` — **a statement changes nothing the
  second time**.
-/

import Mathlib.Logic.Function.Basic
import Mathlib.Tactic

set_option relaxedAutoImplicit false
set_option autoImplicit false

namespace Catalogs

/-- A cell: a sealed text is a token that opens to it, and a generated value is not compared. -/
inductive Value
  | null
  | int (n : ℤ)
  | text (s : String)
  | sealed (s : String)
  | generated
  deriving DecidableEq, Repr

/-- A primary key. -/
inductive Key
  | int (n : ℤ)
  | text (s : String)
  | generated
  deriving DecidableEq, Repr

/-- A key as the value of another column. -/
def Key.value : Key → Value
  | int n => .int n
  | text s => .text s
  | generated => .generated

/-- `CAST(v AS TEXT)`; `NULL` has none. -/
def Value.cast : Value → Option String
  | int n => some (Int.repr n)
  | text s => some s
  | .sealed s => some s
  | _ => none

/-- A row. -/
structure Row where
  key : Key
  cell : String → Value

/-- A row with another value in a column. -/
def Row.set (row : Row) (c : String) (v : Value) : Row :=
    { row with cell := Function.update row.cell c v }

/-- A column, with what its declaration says and the value that a row has by default. -/
structure Column where
  name : String
  type : String
  default : Value := .null
  deriving DecidableEq, Repr

/-- A table. -/
structure Table where
  columns : List Column
  constraints : List String := []
  rows : List Row := []

/-- A database. -/
abbrev Catalog : Type := String → Option Table

/-- The names of the columns. -/
def Table.names (t : Table) : List String := t.columns.map Column.name

/-- The row with a key. -/
def findKey (key : Key) (rows : List Row) : Option Row := rows.find? fun row => row.key = key

/-- A new row, with the defaults of the columns that are not given. -/
def Table.newRow (t : Table) (given : List (String × Value)) : Row where
  key := .generated
  cell c :=
    match given.lookup c with
    | some v => v
    | none => ((t.columns.find? fun column => column.name = c).map Column.default).getD .null

/-- The columns of a table: none if there is no such table. -/
def tableColumns (db : Catalog) (table : String) : List String :=
    ((db table).map Table.names).getD []

/-! ### Statements -/

/-- `ALTER TABLE … ADD COLUMN`. -/
def addColumn (table : String) (column : Column) (db : Catalog) : Option Catalog :=
  (db table).bind fun t =>
    if column.name ∈ t.names then none
    else
      some (Function.update db table (some
        { t with
          columns := t.columns ++ [column]
          rows := t.rows.map fun row => row.set column.name column.default }))

/-- `CREATE TABLE IF NOT EXISTS`, which fails without the tables that it refers to. -/
def createTable (table : String) (t : Table) (needs : List String)
    (db : Catalog) : Option Catalog :=
  if (db table).isSome then some db
  else if ∀ other ∈ needs, (db other).isSome then some (Function.update db table (some t))
  else none

/-- A statement that changes the rows of a table, of which it names some columns. -/
def modify (table : String) (needs : List String) (change : Table → List Row) (db : Catalog) :
    Option Catalog :=
  (db table).bind fun t =>
    if ∀ c ∈ needs, c ∈ t.names then
      some (Function.update db table (some { t with rows := change t }))
    else none

/-- `UPDATE … SET c = v WHERE c IS NULL OR c = ''`, of one row. -/
def fillBlank (blank : Value → Bool) (c : String) (v : Value) (row : Row) : Row :=
  if blank (row.cell c) then row.set c v else row

/-- `INSERT OR IGNORE`: a row that is there with the same cells in the columns of a unique key
stays. -/
def insertOrIgnore (same : Value → Value → Bool) (unique : List String) (rows : List Row)
    (row : Row) :
    List Row :=
  if rows.any fun old => unique.all fun c =>
    same (old.cell c) (row.cell c) then rows else rows ++ [row]

/-- `INSERT OR REPLACE` of a row with a key and one cell. -/
def upsert (key : Key) (c : String) (v : Value) (rows : List Row) : List Row :=
  if rows.any fun row => row.key = key then
    rows.map fun row => if row.key = key then row.set c v else row
  else rows ++ [{ key := key, cell := Function.update (fun _ => .null) c v }]

/-- `DELETE … WHERE key = …`. -/
def deleteKey (key : Key) (rows : List Row) : List Row := rows.filter fun row => row.key ≠ key

/-! ### What a statement changes -/

section Statements

variable {db db' : Catalog} {table other : String} {column : Column} {t : Table}
  {needs : List String}
  {change : Table → List Row} {row : Row} {rows : List Row} {c : String} {v : Value} {key : Key}
  {blank : Value → Bool} {same : Value → Value → Bool} {unique : List String}

@[simp] theorem set_cell : (row.set c v).cell c = v := Function.update_self ..

@[simp] theorem set_cell_of_ne {c' : String} (hne : c' ≠ c) : (row.set c v).cell c' = row.cell c' :=
  Function.update_of_ne hne ..

@[simp] theorem set_key : (row.set c v).key = row.key := rfl

@[simp] theorem set_self : row.set c (row.cell c) = row := by
  rw [Row.set, Function.update_eq_self]

/-- **What a new column changes.** -/
theorem tableColumns_addColumn (h : addColumn table column db = some db') :
    tableColumns db' other =
      if other = table then tableColumns db table ++ [column.name] else tableColumns db other := by
  obtain ⟨t, ht, hadd⟩ := Option.bind_eq_some_iff.1 h
  split_ifs at hadd with hhas
  obtain rfl := Option.some.inj hadd
  split_ifs with heq
  · subst heq
    simp [tableColumns, ht, Table.names]
  · simp [tableColumns, Function.update_of_ne heq]

/-- A column that is not there is added exactly if there is the table. -/
theorem mem_tableColumns_of_addColumn (h : addColumn table column db = some db') :
    column.name ∈ tableColumns db' table := by
  rw [tableColumns_addColumn h, if_pos rfl]
  exact List.mem_append_right _ (List.mem_singleton_self _)

theorem isSome_of_createTable (h : createTable table t needs db = some db') :
    (db' table).isSome = true := by
  rw [createTable] at h
  split_ifs at h with hthere
  · exact Option.some.inj h ▸ hthere
  · obtain rfl := Option.some.inj h
    rw [Function.update_self]
    rfl

theorem addColumn_other (h : addColumn table column db = some db') (hne : other ≠ table) :
    db' other = db other := by
  obtain ⟨t, _, hadd⟩ := Option.bind_eq_some_iff.1 h
  split_ifs at hadd
  rw [← Option.some.inj hadd, Function.update_of_ne hne]

theorem createTable_other (h : createTable table t needs db = some db') (hne : other ≠ table) :
    db' other = db other := by
  rw [createTable] at h
  split_ifs at h
  · rw [Option.some.inj h]
  · rw [← Option.some.inj h, Function.update_of_ne hne]

/-- **What a statement changes.** -/
theorem modify_eq_some_iff :
    modify table needs change db = some db' ↔
      ∃ t, db table = some t ∧ (∀ c ∈ needs, c ∈ t.names) ∧
        db' = Function.update db table (some { t with rows := change t }) := by
  rw [modify, Option.bind_eq_some_iff]
  refine exists_congr fun t => and_congr_right fun _ => ?_
  split_ifs with hneeds
  · rw [Option.some.injEq, and_iff_right hneeds, eq_comm]
  · exact iff_of_false nofun fun h => hneeds h.1

/-- A statement that leaves the rows as they are changes nothing. -/
theorem modify_of_fixed (ht : db table = some t) (hneeds : ∀ c ∈ needs, c ∈ t.names)
    (hfixed : change t = t.rows) : modify table needs change db = some db := by
  refine modify_eq_some_iff.2 ⟨t, ht, hneeds, ?_⟩
  rw [hfixed, ← ht, Function.update_eq_self]

theorem modify_other (h : modify table needs change db = some db') (hne : other ≠ table) :
    db' other = db other := by
  obtain ⟨t, _, _, rfl⟩ := modify_eq_some_iff.1 h
  rw [Function.update_of_ne hne]

/-- A cell that is given. -/
theorem newRow_cell {given : List (String × Value)} (h : given.lookup c = some v) :
    (t.newRow given).cell c = v := by
  simp only [Table.newRow, h]

/-- **A blank cell is filled once.** -/
theorem fillBlank_fixed :
    fillBlank blank c v (fillBlank blank c v row) = fillBlank blank c v row := by
  have hset : fillBlank blank c v (row.set c v) = row.set c v := by
    rw [fillBlank]
    split_ifs
    · simp [Row.set]
    · rfl
  by_cases hblank : blank (row.cell c) = true
  · rw [show fillBlank blank c v row = row.set c v from if_pos hblank, hset]
  · rw [show fillBlank blank c v row = row from if_neg hblank]
    exact if_neg hblank

/-- Filling another column leaves a filled cell alone. -/
theorem fillBlank_comm {c' : String} {v' : Value} (hne : c ≠ c')
    (hfixed : fillBlank blank c v row = row) :
    fillBlank blank c v (fillBlank blank c' v' row) = fillBlank blank c' v' row := by
  have hcell : (fillBlank blank c' v' row).cell c = row.cell c := by
    rw [fillBlank]
    split_ifs
    · exact set_cell_of_ne hne
    · rfl
  by_cases hblank : blank (row.cell c) = true
  · have hvalue : row.cell c = v := by
      rw [fillBlank, if_pos hblank] at hfixed
      rw [← hfixed, set_cell]
    rw [show fillBlank blank c v (fillBlank blank c' v' row) =
        (fillBlank blank c' v' row).set c v from if_pos (by rwa [hcell]),
      ← hvalue, ← hcell, set_self]
  · exact if_neg (by rwa [hcell])

/-- **A row that is there is not inserted again.** -/
theorem insertOrIgnore_fixed
    (h : ∃ old ∈ rows, ∀ c ∈ unique, same (old.cell c) (row.cell c) = true) :
    insertOrIgnore same unique rows row = rows := by
  obtain ⟨old, hold, hsame⟩ := h
  exact if_pos (List.any_eq_true.2 ⟨old, hold, List.all_eq_true.2 hsame⟩)

/-- An insertion leaves a row with the cells that are unique. -/
theorem exists_insertOrIgnore (hrefl : ∀ c ∈ unique, same (row.cell c) (row.cell c) = true) :
    ∃ old ∈ insertOrIgnore same unique rows row,
      ∀ c ∈ unique, same (old.cell c) (row.cell c) = true := by
  rw [insertOrIgnore]
  split_ifs with hthere
  · obtain ⟨old, hold, hsame⟩ := List.any_eq_true.1 hthere
    exact ⟨old, hold, List.all_eq_true.1 hsame⟩
  · exact ⟨row, List.mem_append_right _ (List.mem_singleton_self _), hrefl⟩

theorem subset_insertOrIgnore : rows ⊆ insertOrIgnore same unique rows row := by
  rw [insertOrIgnore]
  split_ifs
  · exact List.Subset.refl _
  · exact List.subset_append_left _ _

theorem subset_foldl_insertOrIgnore {ι : Type} {l : List ι} {make : ι → Row} :
    rows ⊆ l.foldl (fun rows i => insertOrIgnore same unique rows (make i)) rows := by
  induction l generalizing rows with
  | nil => exact List.Subset.refl _
  | cons i l ih => exact List.Subset.trans subset_insertOrIgnore ih

/-- Rows that are there are not inserted again. -/
theorem foldl_insertOrIgnore_fixed {ι : Type} {l : List ι} {make : ι → Row}
    (h : ∀ i ∈ l, ∃ old ∈ rows, ∀ c ∈ unique, same (old.cell c) ((make i).cell c) = true) :
    l.foldl (fun rows i => insertOrIgnore same unique rows (make i)) rows = rows := by
  induction l with
  | nil => rfl
  | cons i l ih =>
      obtain ⟨hi, hl⟩ := List.forall_mem_cons.1 h
      rw [List.foldl_cons, insertOrIgnore_fixed hi]
      exact ih hl

/-- Insertions leave a row for each of them. -/
theorem exists_foldl_insertOrIgnore {ι : Type} {l : List ι} {make : ι → Row}
    (hrefl : ∀ v, same v v = true) :
    ∀ i ∈ l, ∃ old ∈ l.foldl (fun rows i => insertOrIgnore same unique rows (make i)) rows,
      ∀ c ∈ unique, same (old.cell c) ((make i).cell c) = true := by
  induction l generalizing rows with
  | nil => exact fun _ => nofun
  | cons j l ih =>
      intro i hi
      rcases List.mem_cons.1 hi with rfl | hi
      · obtain ⟨old, hold, hsame⟩ : ∃ old ∈ insertOrIgnore same unique rows (make i),
            ∀ c ∈ unique, same (old.cell c) ((make i).cell c) = true :=
          exists_insertOrIgnore fun _ _ => hrefl _
        refine ⟨old, ?_, hsame⟩
        rw [List.foldl_cons]
        exact subset_foldl_insertOrIgnore hold
      · exact ih i hi

theorem mem_deleteKey : row ∈ deleteKey key rows ↔ row ∈ rows ∧ row.key ≠ key := by
  simp [deleteKey]

/-- Deleting a key that is not there changes nothing. -/
theorem deleteKey_fixed (h : ∀ row ∈ rows, row.key ≠ key) : deleteKey key rows = rows :=
  List.filter_eq_self.2 fun row hrow => decide_eq_true (h row hrow)

theorem key_of_findKey (h : findKey key rows = some row) : row.key = key := by
  have hkey := List.find?_some h
  exact of_decide_eq_true hkey

theorem findKey_eq_none : findKey key rows = none ↔ ∀ row ∈ rows, row.key ≠ key := by
  rw [findKey, List.find?_eq_none]
  exact forall₂_congr fun row _ => by rw [decide_eq_true_eq]

theorem findKey_append {rows' : List Row} :
    findKey key (rows ++ rows') = (findKey key rows).or (findKey key rows') := List.find?_append

theorem findKey_cons :
    findKey key (row :: rows) = if row.key = key then some row else findKey key rows := by
  rw [findKey, List.find?_cons]
  by_cases hkey : row.key = key
  · simp [hkey]
  · simp [hkey, findKey]

/-- The row of a key behind an `INSERT OR REPLACE`. -/
theorem exists_findKey_upsert (key : Key) (c : String) (v : Value) (rows : List Row) :
    ∃ found, findKey key (upsert key c v rows) = some found ∧ found.cell c = v := by
  rw [upsert]
  split_ifs with hthere
  · cases hfind : findKey key (rows.map fun row => if row.key = key then row.set c v else row) with
    | none =>
        obtain ⟨old, hold, hkey⟩ := List.any_eq_true.1 hthere
        have hset := findKey_eq_none.1 hfind _
            (List.mem_map.2 ⟨old, hold, if_pos (by simpa using hkey)⟩)
        exact absurd (by simpa using hkey) hset
    | some found =>
        refine ⟨found, rfl, ?_⟩
        obtain ⟨row, _, hrow⟩ := List.mem_map.1 (List.mem_of_find?_eq_some hfind)
        split_ifs at hrow with hkey
        · rw [← hrow, set_cell]
        · exact absurd (hrow ▸ key_of_findKey hfind) hkey
  · have hnone : findKey key rows = none := by
      refine findKey_eq_none.2 fun row hrow hkey => hthere ?_
      exact List.any_eq_true.2 ⟨row, hrow, decide_eq_true hkey⟩
    rw [findKey_append, hnone, findKey_cons, if_pos rfl]
    exact ⟨_, rfl, by simp⟩

/-- A change of the rows of one key leaves the other keys alone. -/
theorem findKey_map_of_ne {key' : Key} (hne : key ≠ key') {set : Row → Row}
    (hset : ∀ row, (set row).key = row.key) :
    findKey key' (rows.map fun row => if row.key = key then set row else row) =
      findKey key' rows := by
  induction rows with
  | nil => rfl
  | cons row rows ih =>
      rw [List.map_cons, findKey_cons, findKey_cons, ih]
      by_cases hkey : row.key = key
      · have hother : ¬ row.key = key' := fun h => hne (hkey.symm.trans h)
        have hotherSet : ¬ (set row).key = key' := by rwa [hset]
        rw [if_pos hkey, if_neg hotherSet, if_neg hother]
      · rw [if_neg hkey]

theorem findKey_upsert_of_ne {key' : Key} (hne : key ≠ key') :
    findKey key' (upsert key c v rows) = findKey key' rows := by
  rw [upsert]
  split_ifs
  · exact findKey_map_of_ne hne fun _ => rfl
  · rw [findKey_append, findKey_cons, if_neg hne]
    exact Option.or_none

theorem findKey_deleteKey : findKey key (deleteKey key rows) = none :=
  findKey_eq_none.2 fun _ hrow => (mem_deleteKey.1 hrow).2

theorem findKey_deleteKey_of_ne {key' : Key} (hne : key ≠ key') :
    findKey key' (deleteKey key rows) = findKey key' rows := by
  induction rows with
  | nil => rfl
  | cons row rows ih =>
      rw [deleteKey, List.filter_cons, findKey_cons]
      by_cases hkey : row.key = key
      · have hother : ¬ row.key = key' := fun h => hne (hkey.symm.trans h)
        rw [if_neg (by simpa using hkey), if_neg hother]
        exact ih
      · rw [if_pos (by simpa using hkey), findKey_cons]
        exact congrArg _ ih

end Statements

end Catalogs
