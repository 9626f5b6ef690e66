/-
**The table of the queue.**

`media_queue` has a primary key that is never used again, and `emby_id` is unique in it.  A
statement of SQL that writes to it updates some rows, removes some, or inserts one; it leaves the
two keys of every row as they are.  An insertion of a title whose `emby_id` is there already is
ignored.

Main definitions:

* `QueueTable` — the table;
* `QueueTable.update`, `QueueTable.delete`, `QueueTable.insertOrIgnore` — the statements.

Main results:

* `QueueTable.mem_update`, `QueueTable.mem_delete`, `QueueTable.mem_insertOrIgnore` — the rows after
  each of them.
-/

import Hygie.Schema

set_option relaxedAutoImplicit false
set_option autoImplicit false

namespace Hygie

/-- The rows of `media_queue`, and the next value of its `AUTOINCREMENT` key. -/
@[ext] structure QueueTable where
  rows : List QueueRow
  nextId : ℤ
  id_nodup : (rows.map (·.id)).Nodup
  embyId_nodup : (rows.map (·.embyId)).Nodup
  lt_nextId : ∀ row ∈ rows, row.id < nextId

/-- A change of a row that leaves its keys alone. -/
abbrev KeepsKeys (set : QueueRow → QueueRow) : Prop :=
  ∀ row, (set row).id = row.id ∧ (set row).embyId = row.embyId

namespace QueueTable

/-- A queue of one row. -/
def single (row : QueueRow) : QueueTable where
  rows := [row]
  nextId := row.id + 1
  id_nodup := List.nodup_singleton row.id
  embyId_nodup := List.nodup_singleton row.embyId
  lt_nextId := List.forall_mem_singleton.2 (lt_add_one row.id)

/-- The change of the rows that an `UPDATE` names. -/
def setWhere (p : QueueRow → Bool) (set : QueueRow → QueueRow) (row : QueueRow) : QueueRow :=
  if p row then set row else row

variable {p : QueueRow → Bool} {set : QueueRow → QueueRow} {row : QueueRow}

theorem setWhere_id (h : KeepsKeys set) : (setWhere p set row).id = row.id := by
  simp only [setWhere]
  split_ifs
  · exact (h row).1
  · rfl

theorem setWhere_embyId (h : KeepsKeys set) : (setWhere p set row).embyId = row.embyId := by
  simp only [setWhere]
  split_ifs
  · exact (h row).2
  · rfl

/-- An `UPDATE`. -/
def update (q : QueueTable) (p : QueueRow → Bool) (set : QueueRow → QueueRow) (h : KeepsKeys set) :
    QueueTable where
  rows := q.rows.map (setWhere p set)
  nextId := q.nextId
  lt_nextId := by
    intro row hrow
    obtain ⟨old, hold, rfl⟩ := List.mem_map.1 hrow
    rw [setWhere_id h]
    exact q.lt_nextId old hold
  id_nodup := by
    have hids : (fun row : QueueRow => (setWhere p set row).id) = (·.id) :=
      funext fun _ => setWhere_id h
    simpa only [List.map_map, Function.comp_def, hids] using q.id_nodup
  embyId_nodup := by
    have hids : (fun row : QueueRow => (setWhere p set row).embyId) = (·.embyId) :=
      funext fun _ => setWhere_embyId h
    simpa only [List.map_map, Function.comp_def, hids] using q.embyId_nodup

/-- A `DELETE`. -/
def delete (q : QueueTable) (p : QueueRow → Bool) : QueueTable where
  rows := q.rows.filter fun row => !p row
  nextId := q.nextId
  lt_nextId row hrow := q.lt_nextId row (List.mem_of_mem_filter hrow)
  id_nodup := q.id_nodup.sublist (List.filter_sublist.map _)
  embyId_nodup := q.embyId_nodup.sublist (List.filter_sublist.map _)

/-- The row that an entry becomes. -/
def newRow (q : QueueTable) (entry : QueueEntry) : QueueRow := { entry with id := q.nextId }

/-- An `INSERT` of an entry whose `emby_id` is not there yet. -/
def insert (q : QueueTable) (entry : QueueEntry) (h : entry.embyId ∉ q.rows.map (·.embyId)) :
    QueueTable where
  rows := q.rows ++ [q.newRow entry]
  nextId := q.nextId + 1
  lt_nextId := by
    intro row hrow
    rcases List.mem_append.1 hrow with hrow | hrow
    · have hlt := q.lt_nextId row hrow
      omega
    · rw [List.mem_singleton.1 hrow]
      exact Int.lt_succ q.nextId
  id_nodup := by
    rw [List.map_append, List.nodup_append_comm]
    refine List.nodup_cons.2 ⟨fun hmem => ?_, q.id_nodup⟩
    obtain ⟨row, hrow, heq⟩ := List.mem_map.1 hmem
    exact absurd heq (q.lt_nextId row hrow).ne
  embyId_nodup := by
    rw [List.map_append, List.nodup_append_comm]
    exact List.nodup_cons.2 ⟨h, q.embyId_nodup⟩

/-- `insert_queue_entry`: a duplicate `emby_id` is ignored. -/
def insertOrIgnore (q : QueueTable) (entry : QueueEntry) : QueueTable :=
  if h : entry.embyId ∈ q.rows.map (·.embyId) then q else q.insert entry h

/-! ### The rows after a statement -/

variable {q q' : QueueTable} {entry : QueueEntry}

/-- A row is determined by its primary key. -/
theorem eq_of_id {other : QueueRow} (hrow : row ∈ q.rows) (hother : other ∈ q.rows)
    (hid : row.id = other.id) : row = other :=
  List.inj_on_of_nodup_map q.id_nodup hrow hother hid

theorem eq_of_embyId {other : QueueRow} (hrow : row ∈ q.rows) (hother : other ∈ q.rows)
    (hid : row.embyId = other.embyId) : row = other :=
  List.inj_on_of_nodup_map q.embyId_nodup hrow hother hid

@[simp] theorem mem_update {h : KeepsKeys set} :
    row ∈ (q.update p set h).rows ↔ ∃ old ∈ q.rows, setWhere p set old = row := List.mem_map

/-- An update keeps the identifiers of the items. -/
theorem map_embyId_update {h : KeepsKeys set} :
    (q.update p set h).rows.map (·.embyId) = q.rows.map (·.embyId) := by
  rw [update, List.map_map]
  exact List.map_congr_left fun row _ => setWhere_embyId h

@[simp] theorem mem_delete : row ∈ (q.delete p).rows ↔ row ∈ q.rows ∧ p row = false := by
  simp [delete]

theorem mem_insert {h : entry.embyId ∉ q.rows.map (·.embyId)} :
    row ∈ (q.insert entry h).rows ↔ row ∈ q.rows ∨ row = q.newRow entry := by
  simp [insert]

/-- An entry is inserted if no row has its `emby_id`. -/
theorem mem_insertOrIgnore :
    row ∈ (q.insertOrIgnore entry).rows ↔
      row ∈ q.rows ∨ entry.embyId ∉ q.rows.map (·.embyId) ∧ row = q.newRow entry := by
  simp only [insertOrIgnore]
  split_ifs with h
  · simp [h]
  · simp [mem_insert, h]

end QueueTable

end Hygie
