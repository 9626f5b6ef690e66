/-
**The selection of a batch, with what may fail.**

`_select_items_to_delete` takes the due rows and the map from libraries to servers.  The rows of a
server whose activity log cannot be read are left out and stay as they are; all other rows are given
their last play, in memory and in the table, and go on to the rescue, which drops those that were
played since they were put on the queue and removes them from the table.  The two writes of a server
and the removal of a row may fail, and then the selection goes on without them.

So every due row is selected, postponed or rescued, and no row is removed that was not played.  What
may go wrong is the reading of the log: the play of an item is the largest text among its stops, and
when a stop with a smaller text is the later one, a row may be selected although its item was
played.

Main definitions:

* `SelectionFaults`, `refreshRowsOf`, `selectDue` — the selection;
* `IsReturned`, `IsPostponed`, `IsRescued` — what becomes of a row;
* `PartitionsDue` — the law of the selection.

Main results:

* `selectItemsToDelete_eq` — the selection of a batch in which nothing fails;
* `isReturned_or` — **a row is selected, postponed or rescued**;
* `partitionsDue_iff` — **exactly when the law holds**.
-/

import Hygie.ConsolidatedWatch
import Hygie.WatchReaders

set_option relaxedAutoImplicit false
set_option autoImplicit false

namespace Hygie

/-! ### The selection -/

/-- The statements that fail: the two writes of the watch state of a server, and the removal of a
row. -/
structure SelectionFaults where
  directWrite : String → Bool := fun _ => false
  consolidatedWrite : String → Bool := fun _ => false
  delete : ℤ → Bool := fun _ => false

/-- The rows of a server that stay in the batch, and the parameters of the two writes. -/
structure ServerBatch where
  kept : List QueueRow
  direct : List WatchWrite
  consolidated : List WatchWrite

section Selection

variable (rt : Runtime) (w : WatchSources) (log : String → Option Activity)
  (serverOf : String → String)
  (faults : SelectionFaults)

/-- The rows of one server: they are kept as they are if nothing can be asked, and left out if
`get_play_activity` raises; `log` is what it returns. -/
def refreshRowsOf (serverId : String) (rows : List QueueRow) : ServerBatch :=
  if Contactable (getClient w.cfg serverId) then
    match log serverId with
    | none => { kept := [], direct := [], consolidated := [] }
    | some activity =>
        { kept := rows.map (refreshRow rt w serverId activity)
          direct := (rows.filter fun row => !isConsolidatedId row.embyId).filterMap
            (watchWrite w serverId activity)
          consolidated := (rows.filter fun row => isConsolidatedId row.embyId).filterMap
            (watchWrite w serverId activity) }
  else { kept := rows, direct := [], consolidated := [] }

/-- The writes that take effect: a failure of the first one leaves out the second one. -/
def ServerBatch.written (batch : ServerBatch) (serverId : String) : List WatchWrite :=
  if faults.directWrite serverId then []
  else if faults.consolidatedWrite serverId then batch.direct
  else batch.direct ++ batch.consolidated

/-- The servers of the rows, in the order of their first rows. -/
def serversOf (rows : List QueueRow) : List String :=
  (rows.map fun row => serverOf row.libraryId).eraseDups

/-- The rows of one server. -/
def rowsOf (rows : List QueueRow) (serverId : String) : List QueueRow :=
  rows.filter fun row => serverOf row.libraryId = serverId

/-- The rows that `_refresh_watch_state_before_deletion` returns. -/
def keptRows (rows : List QueueRow) : List QueueRow :=
  (serversOf serverOf rows).flatMap fun serverId =>
    (refreshRowsOf rt w log serverId (rowsOf serverOf rows serverId)).kept

/-- What `_refresh_watch_state_before_deletion` writes. -/
def writtenPlays (rows : List QueueRow) : List WatchWrite :=
  (serversOf serverOf rows).flatMap fun serverId =>
    (refreshRowsOf rt w log serverId (rowsOf serverOf rows serverId)).written faults serverId

/-- `_rescue_watched_since_queued`; a row that cannot be removed is dropped all the same. -/
def rescueWatchedSinceQueued (rows : List QueueRow) (q : QueueTable) : List QueueRow × QueueTable :=
  let watched := rows.filter (isWatchedSince rt)
  (rows.filter fun row => !isWatchedSince rt row,
    q.delete fun row => row.id ∈ (watched.filter fun row => !faults.delete row.id).map (·.id))

/-- `_select_items_to_delete` on the due rows: the items of the batch, and the table. -/
def selectDue (due : List QueueRow) (q : QueueTable) : List Item × QueueTable :=
  let (rows, q) := rescueWatchedSinceQueued rt faults (keptRows rt w log serverOf due)
    ((writtenPlays rt w log serverOf faults due).foldl QueueTable.writeWatchState q)
  (rows.map fun row => { row with serverId := some (serverOf row.libraryId) }, q)

end Selection

/-- What the logs of the servers say. -/
def serverLogs (w : WatchSources) (serverId : String) : Option Activity :=
  (w.server serverId).getPlayActivity

/-- **The selection of a batch in which nothing fails.** -/
theorem selectItemsToDelete_eq {rt : Runtime} {w : WatchSources} {libraries : List Library}
    {q : QueueTable} :
    selectItemsToDelete rt w libraries q =
      selectDue rt w (serverLogs w) (libraryServer libraries) {} (q.rows.filter (isDue rt)) q := by
  have hserver : ∀ serverId rows, refreshServer rt w serverId rows =
      ((refreshRowsOf rt w (serverLogs w) serverId rows).kept,
        (refreshRowsOf rt w (serverLogs w) serverId rows).written {} serverId) := by
    intro serverId rows
    simp only [refreshServer, refreshRowsOf, serverLogs, ServerBatch.written, Bool.false_eq_true,
      if_false]
    split_ifs
    · cases (w.server serverId).getPlayActivity with
      | none => rfl
      | some activity =>
          simp only [List.partition_eq_filter_filter, List.filterMap_append]
          rfl
    · rfl
  simp only [selectItemsToDelete, selectDue, refreshWatchState, keptRows, writtenPlays, serversOf,
    rowsOf, hserver, List.flatMap_map, rescueWatched, rescueWatchedSinceQueued, Bool.not_false,
    List.filter_true]

/-! ### What becomes of a row -/

section Law

variable (rt : Runtime) (w : WatchSources) (serverOf : String → String) (faults : SelectionFaults)
  (due : List QueueRow) (q : QueueTable) (row : QueueRow)

/-- The server of a row can be asked, and its log cannot be read. -/
def LogUnreadable : Prop :=
  Contactable (getClient w.cfg (serverOf row.libraryId)) ∧
    serverLogs w (serverOf row.libraryId) = none

/-- The log of the server of a row has been read. -/
def LogRead : Prop :=
  Contactable (getClient w.cfg (serverOf row.libraryId)) ∧
    (w.server (serverOf row.libraryId)).LogReadable

/-- The log holds a stop of the item after the row was put on the queue. -/
def LoggedSince : Prop :=
  ∃ entry ∈ (w.server (serverOf row.libraryId)).entries, entry.isStop = true ∧
    entry.itemId = row.embyId ∧ IsSince rt row entry.date

/-- The largest text among the stops of the item is that of an instant after the row was put on the
queue. -/
def LargestSince : Prop :=
  ∃ date, IsSince rt row date ∧
    IsGreatest {d | ∃ entry ∈ (w.server (serverOf row.libraryId)).entries, entry.isStop = true ∧
      entry.itemId = row.embyId ∧ entry.date = d} date

/-- A row after the look at the log; nothing when it is postponed. -/
def refreshedRow (log : String → Option Activity) : Option QueueRow :=
  if Contactable (getClient w.cfg (serverOf row.libraryId)) then
    (log (serverOf row.libraryId)).map fun activity =>
      refreshRow rt w (serverOf row.libraryId) activity row
  else some row

/-- What `_select_items_to_delete` returns, and the table afterwards. -/
abbrev selection : List Item × QueueTable := selectDue rt w (serverLogs w) serverOf faults due q

/-- The row is returned for deletion. -/
def IsReturned : Prop := ∃ item ∈ (selection rt w serverOf faults due q).1, item.id = row.id

/-- The row is postponed and stays as it is. -/
def IsPostponed : Prop :=
  LogUnreadable w serverOf row ∧ row ∈ (selection rt w serverOf faults due q).2.rows

/-- The row is dropped because it was played, and removed unless that fails. -/
def IsRescued : Prop :=
  (∃ row', refreshedRow rt w serverOf row (serverLogs w) = some row' ∧ StoredSince rt row') ∧
    (faults.delete row.id = false →
      ∀ left ∈ (selection rt w serverOf faults due q).2.rows, left.id ≠ row.id)

/-- **The law of the selection.** -/
structure PartitionsDue : Prop where
  exactlyOne : ∀ row ∈ due,
    (IsReturned rt w serverOf faults due q row ∧ ¬ IsPostponed rt w serverOf faults due q row ∧
        ¬ IsRescued rt w serverOf faults due q row) ∨
      (¬ IsReturned rt w serverOf faults due q row ∧ IsPostponed rt w serverOf faults due q row ∧
        ¬ IsRescued rt w serverOf faults due q row) ∨
      (¬ IsReturned rt w serverOf faults due q row ∧ ¬ IsPostponed rt w serverOf faults due q row ∧
        IsRescued rt w serverOf faults due q row)
  postponed : ∀ row ∈ due, LogUnreadable w serverOf row → IsPostponed rt w serverOf faults due q row
  unwatched : ∀ row ∈ due, IsReturned rt w serverOf faults due q row → LogRead w serverOf row →
    ¬ LoggedSince rt w serverOf row
  noneTwice : ((selection rt w serverOf faults due q).1.map (·.id)).Nodup
  removed : ∀ row ∈ q.rows,
    (∀ left ∈ (selection rt w serverOf faults due q).2.rows, left.id ≠ row.id) →
    row ∈ due ∧ (StoredSince rt row ∨ LogRead w serverOf row ∧ LoggedSince rt w serverOf row)

end Law

section Selected

variable {rt : Runtime} {w : WatchSources} {log : String → Option Activity}
  {serverOf : String → String} {faults : SelectionFaults} {rows due : List QueueRow}
  {q : QueueTable} {row row' : QueueRow} {serverId : String}

theorem mem_rowsOf : row ∈ rowsOf serverOf rows serverId ↔
    row ∈ rows ∧ serverOf row.libraryId = serverId := by
  simp [rowsOf]

theorem mem_serversOf : serverId ∈ serversOf serverOf rows ↔
    ∃ row ∈ rows, serverOf row.libraryId = serverId := by
  simp [serversOf, List.mem_eraseDups]

/-- The rows of a server that are kept. -/
theorem mem_kept_refreshRowsOf :
    row' ∈ (refreshRowsOf rt w log serverId (rowsOf serverOf rows serverId)).kept ↔
      ∃ row ∈ rows, serverOf row.libraryId = serverId ∧
        refreshedRow rt w serverOf row log = some row' := by
  simp only [refreshRowsOf]
  split_ifs with hclient
  · cases hlog : log serverId with
    | none =>
        simp only [List.not_mem_nil, false_iff, not_exists, not_and]
        rintro row _ rfl
        simp [refreshedRow, hclient, hlog]
    | some activity =>
        simp only [List.mem_map, mem_rowsOf]
        constructor
        · rintro ⟨row, ⟨hrow, rfl⟩, rfl⟩
          exact ⟨row, hrow, rfl, by simp [refreshedRow, hclient, hlog]⟩
        · rintro ⟨row, hrow, rfl, heq⟩
          refine ⟨row, ⟨hrow, rfl⟩, ?_⟩
          rw [refreshedRow, if_pos hclient, hlog] at heq
          exact Option.some.inj heq
  · rw [mem_rowsOf]
    constructor
    · rintro ⟨hrow, rfl⟩
      exact ⟨row', hrow, rfl, if_neg hclient⟩
    · rintro ⟨row, hrow, rfl, heq⟩
      rw [refreshedRow, if_neg hclient] at heq
      obtain rfl := Option.some.inj heq
      exact ⟨hrow, rfl⟩

/-- **The rows that are kept.** -/
theorem mem_keptRows :
    row' ∈ keptRows rt w log serverOf rows ↔
      ∃ row ∈ rows, refreshedRow rt w serverOf row log = some row' := by
  simp only [keptRows, List.mem_flatMap, mem_serversOf, mem_kept_refreshRowsOf]
  constructor
  · rintro ⟨_, _, row, hrow, _, heq⟩
    exact ⟨row, hrow, heq⟩
  · rintro ⟨row, hrow, heq⟩
    exact ⟨_, ⟨row, hrow, rfl⟩, row, hrow, rfl, heq⟩

/-- Only the last play of a row changes. -/
theorem refreshedRow_eq (h : refreshedRow rt w serverOf row log = some row') :
    { row' with lastPlayed := row.lastPlayed } = row := by
  rw [refreshedRow] at h
  split_ifs at h with hclient
  · obtain ⟨activity, _, rfl⟩ := Option.map_eq_some_iff.1 h
    simp only [refreshRow]
    split
    · rfl
    · next played _ =>
        have hadvance : advanceLastPlayed rt row played = row ∨ _ := advanceLastPlayed_eq
        rcases hadvance with heq | heq <;> rw [heq]
  · obtain rfl := Option.some.inj h
    rfl

theorem refreshedRow_id (h : refreshedRow rt w serverOf row log = some row') :
    row'.id = row.id := by
  rw [← refreshedRow_eq h]

/-- What is written are the plays that the logs report of the rows. -/
theorem mem_writtenPlays {write : WatchWrite}
    (h : write ∈ writtenPlays rt w log serverOf faults rows) :
    ∃ row ∈ rows, write.embyId = row.embyId ∧
      Contactable (getClient w.cfg (serverOf row.libraryId)) ∧
      ∃ activity, log (serverOf row.libraryId) = some activity ∧
        reportedPlay w row (serverOf row.libraryId) activity = some write.played := by
  simp only [writtenPlays, List.mem_flatMap] at h
  obtain ⟨serverId, _, hwritten⟩ := h
  have hparams : write ∈ (refreshRowsOf rt w log serverId (rowsOf serverOf rows serverId)).direct ++
      (refreshRowsOf rt w log serverId (rowsOf serverOf rows serverId)).consolidated := by
    rw [ServerBatch.written] at hwritten
    split_ifs at hwritten
    · cases hwritten
    · exact List.mem_append_left _ hwritten
    · exact hwritten
  simp only [refreshRowsOf] at hparams
  split_ifs at hparams with hclient
  · cases hlog : log serverId with
    | none => simp [hlog] at hparams
    | some activity =>
        have hmem : ∃ row ∈ rowsOf serverOf rows serverId,
            watchWrite w serverId activity row = some write := by
          simp only [hlog, List.mem_append, List.mem_filterMap, List.mem_filter] at hparams
          rcases hparams with ⟨row, ⟨hrow, _⟩, hwrite⟩ | ⟨row, ⟨hrow, _⟩, hwrite⟩
          · exact ⟨row, hrow, hwrite⟩
          · exact ⟨row, hrow, hwrite⟩
        obtain ⟨row, hmem, hwrite⟩ := hmem
        obtain ⟨hrow, rfl⟩ := mem_rowsOf.1 hmem
        obtain ⟨played, hplayed, rfl⟩ := Option.map_eq_some_iff.1 hwrite
        exact ⟨row, hrow, rfl, hclient, activity, hlog, hplayed⟩
  · cases hparams

/-- An update that names no row with an identifier leaves the rows with it alone. -/
theorem QueueTable.mem_update_of_embyId {p : QueueRow → Bool} {set : QueueRow → QueueRow}
    {hkeys : KeepsKeys set} (hp : ∀ old ∈ q.rows, old.embyId = row.embyId → p old = false) :
    row ∈ (q.update p set hkeys).rows ↔ row ∈ q.rows := by
  rw [mem_update]
  constructor
  · rintro ⟨old, hold, rfl⟩
    rw [setWhere, hp old hold (setWhere_embyId hkeys).symm]
    exact hold
  · intro hrow
    exact ⟨row, hrow, by rw [setWhere, hp row hrow rfl]; rfl⟩

theorem WatchWrite.reaches_of_ne {write : WatchWrite} (h : write.embyId ≠ row.embyId) :
    write.reaches row = false := by
  simp [WatchWrite.reaches, h.symm]

/-- A row that no write names is there before and after them. -/
theorem QueueTable.mem_foldl_of_embyId {writes : List WatchWrite}
    (hother : ∀ write ∈ writes, write.embyId ≠ row.embyId) :
    row ∈ (writes.foldl writeWatchState q).rows ↔ row ∈ q.rows := by
  induction writes generalizing q with
  | nil => exact Iff.rfl
  | cons write writes ih =>
      rw [List.foldl_cons, ih fun write' h => hother write' (List.mem_cons_of_mem _ h)]
      refine mem_update_of_embyId fun old _ hid => WatchWrite.reaches_of_ne ?_
      rw [hid]
      exact hother write (List.mem_cons_self ..)

/-- The rows that are left in the table. -/
theorem mem_selectDue_table {left : QueueRow} :
    left ∈ (selectDue rt w log serverOf faults due q).2.rows ↔
      left ∈ ((writtenPlays rt w log serverOf faults due).foldl QueueTable.writeWatchState q).rows ∧
        ∀ row ∈ due, ∀ row', refreshedRow rt w serverOf row log = some row' → StoredSince rt row' →
          faults.delete row.id = false → left.id ≠ row.id := by
  simp only [selectDue, rescueWatchedSinceQueued, QueueTable.mem_delete, decide_eq_false_iff_not,
    List.mem_map, List.mem_filter, mem_keptRows, Bool.not_eq_true', not_exists, not_and, and_imp,
    isWatchedSince_iff]
  refine and_congr_right fun _ => ?_
  constructor
  · intro h row hrow row' hrefreshed hsince hdelete heq
    have hid := refreshedRow_id hrefreshed
    exact h row' ⟨row, hrow, hrefreshed⟩ hsince (by rwa [hid]) (hid.trans heq.symm)
  · rintro h row' ⟨row, hrow, hrefreshed⟩ hsince hdelete heq
    have hid := refreshedRow_id hrefreshed
    exact h row hrow row' hrefreshed hsince (by rwa [← hid]) (heq.symm.trans hid)

end Selected

section Due

variable {rt : Runtime} {w : WatchSources} {serverOf : String → String} {faults : SelectionFaults}
  {due : List QueueRow} {q : QueueTable} {row : QueueRow}

/-- A row is returned if it is not postponed and was not played since. -/
theorem isReturned_iff (hdue : ∀ row ∈ due, row ∈ q.rows) (hrow : row ∈ due) :
    IsReturned rt w serverOf faults due q row ↔
      ∃ row', refreshedRow rt w serverOf row (serverLogs w) = some row' ∧
        ¬ StoredSince rt row' := by
  simp only [IsReturned, selection, selectDue, rescueWatchedSinceQueued, List.mem_map,
    List.mem_filter, mem_keptRows, Bool.not_eq_true', ← isWatchedSince_iff, Bool.not_eq_true]
  constructor
  · rintro ⟨_, ⟨row', ⟨⟨old, hold, hrefreshed⟩, hwatched⟩, rfl⟩, hid⟩
    obtain rfl : old = row :=
      q.eq_of_id (hdue old hold) (hdue row hrow) ((refreshedRow_id hrefreshed).symm.trans hid)
    exact ⟨row', hrefreshed, hwatched⟩
  · rintro ⟨row', hrefreshed, hwatched⟩
    exact ⟨_, ⟨row', ⟨⟨row, hrow, hrefreshed⟩, hwatched⟩, rfl⟩, refreshedRow_id hrefreshed⟩

/-- A postponed row is none that goes on. -/
theorem logUnreadable_iff (rt : Runtime) :
    LogUnreadable w serverOf row ↔ refreshedRow rt w serverOf row (serverLogs w) = none := by
  rw [LogUnreadable, refreshedRow]
  split_ifs with hclient
  · rw [and_iff_right hclient, Option.map_eq_none_iff]
  · exact iff_of_false (fun h => hclient h.1) nofun

/-- A row whose log cannot be read stays as it is. -/
theorem isPostponed_iff (hdue : ∀ row ∈ due, row ∈ q.rows) (hrow : row ∈ due) :
    IsPostponed rt w serverOf faults due q row ↔
      refreshedRow rt w serverOf row (serverLogs w) = none := by
  rw [IsPostponed, logUnreadable_iff rt, and_iff_left_iff_imp]
  intro hnone
  refine mem_selectDue_table.2 ⟨(QueueTable.mem_foldl_of_embyId ?_).2 (hdue row hrow), ?_⟩
  · intro write hwrite hid
    obtain ⟨other, hother, hembyId, hclient, activity, hactivity, _⟩ := mem_writtenPlays hwrite
    obtain rfl : other = row :=
      q.eq_of_embyId (hdue other hother) (hdue row hrow) (hembyId.symm.trans hid)
    rw [refreshedRow, if_pos hclient, hactivity] at hnone
    cases hnone
  · intro other hother row' hrefreshed _ _ hid
    obtain rfl := q.eq_of_id (hdue row hrow) (hdue other hother) hid
    rw [hnone] at hrefreshed
    cases hrefreshed

/-- A row that goes on and was played since is removed, if that does not fail. -/
theorem isRescued_iff (hrow : row ∈ due) :
    IsRescued rt w serverOf faults due q row ↔
      ∃ row', refreshedRow rt w serverOf row (serverLogs w) = some row' ∧ StoredSince rt row' := by
  rw [IsRescued, and_iff_left_iff_imp]
  rintro ⟨row', hrefreshed, hsince⟩ hdelete left hleft
  exact (mem_selectDue_table.1 hleft).2 row hrow row' hrefreshed hsince hdelete

/-- **A row is returned, postponed or rescued**, and only one of them. -/
theorem isReturned_or (hdue : ∀ row ∈ due, row ∈ q.rows) (hrow : row ∈ due) :
    (IsReturned rt w serverOf faults due q row ∧ ¬ IsPostponed rt w serverOf faults due q row ∧
        ¬ IsRescued rt w serverOf faults due q row) ∨
      (¬ IsReturned rt w serverOf faults due q row ∧ IsPostponed rt w serverOf faults due q row ∧
        ¬ IsRescued rt w serverOf faults due q row) ∨
      (¬ IsReturned rt w serverOf faults due q row ∧ ¬ IsPostponed rt w serverOf faults due q row ∧
        IsRescued rt w serverOf faults due q row) := by
  rw [isReturned_iff hdue hrow, isPostponed_iff hdue hrow, isRescued_iff hrow]
  cases refreshedRow rt w serverOf row (serverLogs w) with
  | none => simp
  | some row' =>
      by_cases hsince : StoredSince rt row'
      · simp [hsince]
      · simp [hsince]

/-- The log says of an item what the largest text among its stops says. -/
theorem storedSince_refreshedRow (rt : Runtime)
    (hconsolidated : isConsolidatedId row.embyId = false)
    (hread : LogRead w serverOf row) :
    ∃ row', refreshedRow rt w serverOf row (serverLogs w) = some row' ∧
      (StoredSince rt row' ↔ StoredSince rt row ∨ LargestSince rt w serverOf row) := by
  have hactivity : serverLogs w (serverOf row.libraryId) = some _ :=
    MediaServerState.getPlayActivity_eq_some_iff.2 ⟨hread.2, rfl⟩
  refine ⟨_, by rw [refreshedRow, if_pos hread.1, hactivity, Option.map_some], ?_⟩
  have hstops : {d | ∃ entry ∈ (w.server (serverOf row.libraryId)).entries, entry.isStop = true ∧
      entry.itemId = row.embyId ∧ entry.date = d} =
      {d | d ∈ stopDates (w.server (serverOf row.libraryId)).entries row.embyId} := by
    ext d
    simp only [stopDates, List.mem_map, List.mem_filter, Bool.and_eq_true, decide_eq_true_eq,
      Set.mem_ofPred_eq, and_assoc]
  have hlargest : LargestSince rt w serverOf row ↔ ∃ date,
      (stopDates (w.server (serverOf row.libraryId)).entries row.embyId).max? = some date ∧
        IsSince rt row date := by
    simp only [LargestSince, hstops, List.max?_eq_some_iff, IsGreatest, upperBounds,
      Set.mem_ofPred_eq]
    exact exists_congr fun date => and_comm
  rw [hlargest, refreshRow, reportedPlay, hconsolidated]
  simp only [Bool.false_eq_true, if_false]
  cases (stopDates (w.server (serverOf row.libraryId)).entries row.embyId).max? with
  | none => simp
  | some date => simp [storedSince_advanceLastPlayed]

/-- A row that was played since is one whose stored play says so, or a logged one. -/
theorem played_of_storedSince {row' : QueueRow}
    (hconsolidated : isConsolidatedId row.embyId = false)
    (hrefreshed : refreshedRow rt w serverOf row (serverLogs w) = some row')
    (hsince : StoredSince rt row') :
    StoredSince rt row ∨ LogRead w serverOf row ∧ LoggedSince rt w serverOf row := by
  by_cases hclient : Contactable (getClient w.cfg (serverOf row.libraryId))
  · have hactivity : serverLogs w (serverOf row.libraryId) ≠ none := by
      intro hnone
      rw [refreshedRow, if_pos hclient, hnone] at hrefreshed
      cases hrefreshed
    have hread : LogRead w serverOf row :=
      ⟨hclient, by_contra fun h => hactivity (MediaServerState.getPlayActivity_eq_none_iff.2 h)⟩
    obtain ⟨_, hrow', hiff⟩ := storedSince_refreshedRow rt hconsolidated hread
    obtain rfl := Option.some.inj (hrow'.symm.trans hrefreshed)
    rcases hiff.1 hsince with hstored | ⟨date, hdate, ⟨entry, hentry, hstop, hitem, rfl⟩, _⟩
    · exact .inl hstored
    · exact .inr ⟨hread, entry, hentry, hstop, hitem, hdate⟩
  · rw [refreshedRow, if_neg hclient] at hrefreshed
    obtain rfl := Option.some.inj hrefreshed
    exact .inl hsince

/-- A row that is not left in the table was played since. -/
theorem exists_storedSince_of_removed (hrow : row ∈ q.rows) (hdue : ∀ row ∈ due, row ∈ q.rows)
    (hgone : ∀ left ∈ (selection rt w serverOf faults due q).2.rows, left.id ≠ row.id) :
    row ∈ due ∧ ∃ row', refreshedRow rt w serverOf row (serverLogs w) = some row' ∧
      StoredSince rt row' := by
  have hmem : row.withoutPlays ∈ ((writtenPlays rt w (serverLogs w) serverOf faults due).foldl
      QueueTable.writeWatchState q).rows.map QueueRow.withoutPlays := by
    rw [QueueTable.withoutPlays_foldl]
    exact List.mem_map_of_mem hrow
  obtain ⟨left, hleft, heq⟩ := List.mem_map.1 hmem
  have hid : left.id = row.id := (congrArg QueueRow.id heq :)
  by_contra hkept
  refine hgone left
    (mem_selectDue_table.2 ⟨hleft, fun other hother row' hrefreshed hsince _ hsame => ?_⟩)
    hid
  obtain rfl := q.eq_of_id hrow (hdue other hother) (hid.symm.trans hsame)
  exact hkept ⟨hother, row', hrefreshed, hsince⟩

theorem nodup_eraseDups {α : Type} [BEq α] [LawfulBEq α] (l : List α) : l.eraseDups.Nodup := by
  induction h : l.length using Nat.strong_induction_on generalizing l with
  | _ n ih =>
      subst h
      cases l with
      | nil => exact List.nodup_nil
      | cons a l =>
          rw [List.eraseDups_cons, List.nodup_cons, List.mem_eraseDups]
          have hshorter : (l.filter fun b => !b == a).length < (a :: l).length :=
            Nat.lt_succ_of_le (List.length_filter_le _ _)
          exact ⟨by simp, ih _ hshorter _ rfl⟩

/-- The rows of a server that are kept have the identifiers that they had. -/
theorem map_id_kept_sublist {log : String → Option Activity} {rows : List QueueRow}
    {serverId : String} :
    ((refreshRowsOf rt w log serverId rows).kept.map (·.id)).Sublist (rows.map (·.id)) := by
  have hid : ∀ activity row, (refreshRow rt w serverId activity row).id = row.id := by
    intro activity row
    simp only [refreshRow]
    split
    · rfl
    · next played _ =>
        have hadvance : advanceLastPlayed rt row played = row ∨ _ := advanceLastPlayed_eq
        rcases hadvance with heq | heq <;> rw [heq]
  simp only [refreshRowsOf]
  split_ifs
  · cases log serverId with
    | none => exact List.nil_sublist _
    | some activity =>
        rw [List.map_map]
        exact (List.map_congr_left fun row _ => hid activity row).symm ▸ List.Sublist.refl _
  · exact List.Sublist.refl _

/-- No row is returned twice. -/
theorem nodup_selection (hnodup : due.Nodup) (hdue : ∀ row ∈ due, row ∈ q.rows) :
    ((selection rt w serverOf faults due q).1.map (·.id)).Nodup := by
  have hids : (due.map (·.id)).Nodup := by
    refine hnodup.map_on fun row hrow other hother hid => ?_
    exact q.eq_of_id (hdue row hrow) (hdue other hother) hid
  have hkept : ((keptRows rt w (serverLogs w) serverOf due).map (·.id)).Nodup := by
    rw [keptRows, List.map_flatMap, List.nodup_flatMap]
    refine ⟨fun serverId _ => ?_, ?_⟩
    · exact hids.sublist (map_id_kept_sublist.trans (List.filter_sublist.map _))
    · -- two servers have no row in common
      have hservers : (serversOf serverOf due).Nodup := nodup_eraseDups _
      refine hservers.imp fun hne id hid hid' => ?_
      obtain ⟨row, hrow, rfl⟩ := List.mem_map.1 hid
      obtain ⟨row', hrow', hsame⟩ := List.mem_map.1 hid'
      obtain ⟨old, hold, hserver, heq⟩ := mem_kept_refreshRowsOf.1 hrow
      obtain ⟨old', hold', hserver', heq'⟩ := mem_kept_refreshRowsOf.1 hrow'
      obtain rfl : old' = old := q.eq_of_id (hdue old' hold') (hdue old hold)
        ((refreshedRow_id heq').symm.trans (hsame.trans (refreshedRow_id heq)))
      exact hne (hserver.symm.trans hserver')
  rw [selection, selectDue, List.map_map]
  exact hkept.sublist (List.filter_sublist.map _)

/-- **Exactly when the law holds.** -/
theorem partitionsDue_iff (hnodup : due.Nodup) (hdue : ∀ row ∈ due, row ∈ q.rows)
    (hdirect : ∀ row ∈ due, isConsolidatedId row.embyId = false) :
    PartitionsDue rt w serverOf faults due q ↔
      ∀ row ∈ due, LogRead w serverOf row → LoggedSince rt w serverOf row →
        StoredSince rt row ∨ LargestSince rt w serverOf row := by
  constructor
  · intro hlaw row hrow hread hlogged
    by_contra hnot
    obtain ⟨row', hrefreshed, hiff⟩ := storedSince_refreshedRow rt (hdirect row hrow) hread
    have hreturned : IsReturned rt w serverOf faults due q row :=
      (isReturned_iff hdue hrow).2 ⟨row', hrefreshed, fun hsince => hnot (hiff.1 hsince)⟩
    exact hlaw.unwatched row hrow hreturned hread hlogged
  · intro hlargest
    refine ⟨fun row hrow => isReturned_or hdue hrow, fun row hrow hdown => ?_,
      fun row hrow hreturned hread hlogged => ?_, nodup_selection hnodup hdue,
        fun row hrow hgone => ?_⟩
    · exact (isPostponed_iff hdue hrow).2 ((logUnreadable_iff rt).1 hdown)
    · obtain ⟨row', hrow', hnot⟩ := (isReturned_iff hdue hrow).1 hreturned
      obtain ⟨_, hrefreshed, hiff⟩ := storedSince_refreshedRow rt (hdirect row hrow) hread
      obtain rfl := Option.some.inj (hrow'.symm.trans hrefreshed)
      exact hnot (hiff.2 (hlargest row hrow hread hlogged))
    · obtain ⟨hmem, row', hrefreshed, hsince⟩ := exists_storedSince_of_removed hrow hdue hgone
      exact ⟨hmem, played_of_storedSince (hdirect row hmem) hrefreshed hsince⟩

end Due

/-! ### A batch of one row -/

/-- The dates are read as the program reads them. -/
def isoRuntime : Runtime := { parseIsoDt := PyText.parseIsoDt }

/-- A film that is due. -/
def dueFilm : QueueRow where
  id := 1
  embyId := "e1"
  title := "Alien"
  mediaType := "Movie"
  libraryId := "films"
  libraryName := "Films"
  filePath := "/films/Alien.mkv"
  detectedAt := "2025-02-10T23:00:00+00:00"
  deleteAt := "2025-02-12T00:00:00+00:00"

/-- The queue with this row alone. -/
def dueQueue : QueueTable := .single dueFilm

/-- One media server with the given log. -/
def loggedSources (log : List LogEntry) : WatchSources where
  cfg := { mediaServers := [{ id := "0", url := "http://emby:8096", apiKey := "e" }] }
  answer _ := .error .fatal
  server _ :=
    { log := log
      recent := fun _ => true
      logDown := fun _ => false
      episodes := fun _ => []
      listDown := fun _ => false }

theorem dueFilm_isSince : IsSince isoRuntime dueFilm "2025-02-10T23:30:00Z" :=
  ⟨1739228400000000, 1739230200000000, by decide +kernel, by decide +kernel, by decide⟩

/-- A second film, of another library. -/
def dueAnime : QueueRow :=
  { dueFilm with
    id := 2
    embyId := "e2"
    title := "Akira"
    libraryId := "animes"
    libraryName := "Animes" }

/-- The queue with both. -/
def twoDueQueue : QueueTable where
  rows := [dueFilm, dueAnime]
  nextId := 3
  id_nodup := by decide
  embyId_nodup := by decide
  lt_nextId := by decide

/-- A second server, whose log is down. -/
def twoSources (log : List LogEntry) : WatchSources :=
  { loggedSources log with
    cfg :=
      { mediaServers :=
          [{ id := "0", url := "http://emby:8096", apiKey := "e" },
            { id := "1", url := "http://jellyfin:8096", apiKey := "j" }] }
    server := fun id =>
      { (loggedSources log).server id with logDown := fun _ => decide (id = "1") } }

def serverOfSample (libraryId : String) : String := if libraryId = "films" then "0" else "1"

/-- One film was played since it was queued, and the log of the other one cannot be read. -/
theorem partitionsDue_iff_oneOffset :
    PartitionsDue isoRuntime (twoSources (mixedOffsets.take 1)) serverOfSample {}
      [dueFilm, dueAnime] twoDueQueue := by
  have hnodup : [dueFilm, dueAnime].Nodup := by decide
  have hrows : ∀ row ∈ [dueFilm, dueAnime], row ∈ twoDueQueue.rows := fun _ h => h
  refine (partitionsDue_iff hnodup hrows fun row hrow => ?_).2 fun row hrow hread hlogged => ?_
  · rcases List.mem_pair.1 hrow with rfl | rfl <;> decide +kernel
  · rcases List.mem_pair.1 hrow with rfl | rfl
    · refine .inr ⟨_, dueFilm_isSince, ⟨_, List.mem_singleton_self _, by decide, rfl, rfl⟩, ?_⟩
      rintro date ⟨entry, hentry, _, _, rfl⟩
      obtain rfl := List.mem_singleton.1 hentry
      exact le_refl _
    · exact absurd (hread.2 0 (.inl rfl)) (by decide)

/-- The film was played after it was put on the queue, and is selected all the same. -/
theorem not_partitionsDue_mixedOffsets :
    ¬ ∀ (rt : Runtime) (w : WatchSources) (serverOf : String → String) (faults : SelectionFaults)
      (due : List QueueRow) (q : QueueTable), due.Nodup → (∀ row ∈ due, row ∈ q.rows) →
      (∀ row ∈ due, isConsolidatedId row.embyId = false) →
      (∀ row ∈ due, (rt.parseIsoDt row.detectedAt).isSome = true) →
      (∀ serverId, ∀ entry ∈ (w.server serverId).entries,
      (rt.parseIsoDt entry.date).isSome = true) →
      PartitionsDue rt w serverOf faults due q := by
  intro hclaim
  have hparse : ∀ serverId, ∀ entry ∈ ((loggedSources mixedOffsets).server serverId).entries,
      (isoRuntime.parseIsoDt entry.date).isSome = true := by
    have hall : ∀ entry ∈ mixedOffsets, (PyText.parseIsoDt entry.date).isSome = true := by
      decide +kernel
    exact fun _ entry hentry => hall entry (List.mem_of_mem_filter hentry)
  have hlaw := hclaim isoRuntime (loggedSources mixedOffsets) (fun _ => "0") {} [dueFilm] dueQueue
    (List.nodup_singleton _) (fun _ h => h) (by decide +kernel) (by decide +kernel) hparse
  have hread : LogRead (loggedSources mixedOffsets) (fun _ => "0") dueFilm :=
    ⟨by decide, fun _ _ => rfl⟩
  have hlogged : LoggedSince isoRuntime (loggedSources mixedOffsets) (fun _ => "0") dueFilm :=
    ⟨_, List.mem_cons_self .., by decide, rfl, dueFilm_isSince⟩
  have hreturned : IsReturned isoRuntime (loggedSources mixedOffsets) (fun _ => "0") {} [dueFilm]
      dueQueue dueFilm := by
    rw [IsReturned]
    decide +kernel
  exact hlaw.unwatched dueFilm (List.mem_singleton_self _) hreturned hread hlogged

end Hygie
