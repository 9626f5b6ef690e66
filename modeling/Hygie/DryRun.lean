/-
**Dry runs.**

A deletion is started by the job, by a delete-now request for one row, and by a bulk request for
several.  All three read the setting `dry_run`.  The job and the request for one row only simulate:
they claim no row and write no status.  The bulk request passes the flag on to `_delete_media`,
which simulates too and returns `True`, and then records the row as deleted.

The rows of a batch are handled one after the other here; in the program three of them are handled
at a time, which makes no difference to a dry run.

Main definitions:

* `deleteOne`, `executeBatch`, `runDeletion`, `deleteNow`, `bulkDelete` — the three entry points;
* `EntryPoint`, `EntryPoint.execute`, `EntryPoint.Rescues` — the entry points as one;
* `Undisturbed`, `EntryPoint.TouchesNothing` — what a dry run should leave behind.

Main results:

* `isSelected_selectItemsToDelete` — the rows that a selection leaves on the queue are selected
  later as if it had not been;
* `touchesNothing_iff` — **exactly when a dry run touches nothing**.
-/

import Hygie.ConsolidatedWatch

set_option relaxedAutoImplicit false
set_option autoImplicit false

namespace Hygie

/-! ### The entry points -/

/-- `update_queue_status`. -/
def QueueTable.updateStatus (q : QueueTable) (id : ℤ) (status : Status) : QueueTable :=
  q.update (fun row => row.id = id) (fun row => { row with status := status }) fun _ => ⟨rfl, rfl⟩

/-- `claim_for_deletion`: nothing when the row is not pending. -/
def QueueTable.claimForDeletion (q : QueueTable) (id : ℤ) : Option QueueTable :=
  if q.rows.any fun row => row.id = id && row.status = .pending then
    some (q.update (fun row => row.id = id && row.status = .pending)
      (fun row => { row with status := .deleting }) fun _ => ⟨rfl, rfl⟩)
  else none

/-- `get_by_id`. -/
def QueueTable.getById (q : QueueTable) (id : ℤ) : Option QueueRow := q.rows.find? (·.id = id)

/-- The row as a request hands it on, without the key of its server. -/
def QueueRow.toItem (row : QueueRow) : Item := { row with serverId := none }

section Entry

variable (cfg : Config)

/-- `_delete_one`. -/
def deleteOne (dryRun : Bool) (qbitAction qbitTag : String) (item : Item) (q : QueueTable) :
    Act QueueTable :=
  if dryRun then do
    let _ ← deleteMedia cfg item true qbitAction qbitTag
    pure q
  else
    match q.claimForDeletion item.id with
    | none => pure q
    | some q => do
        let ok ← deleteMedia cfg item false qbitAction qbitTag
        pure (q.updateStatus item.id (if ok then .deleted else .error))

/-- `_execute_batch`. -/
def executeBatch (dryRun : Bool) (qbitAction qbitTag : String) :
    List Item → QueueTable → Act QueueTable
  | [], q => pure q
  | item :: items, q => do
      let q ← deleteOne cfg dryRun qbitAction qbitTag item q
      executeBatch dryRun qbitAction qbitTag items q

/-- `run_deletion`. -/
def runDeletion (rt : Runtime) (w : WatchSources) (libraries : List Library) (dryRun : Bool)
    (q : QueueTable) : Act QueueTable :=
  let (items, q) := selectItemsToDelete rt w libraries q
  executeBatch w.cfg dryRun (if w.cfg.qbitAction = "" then "tag_only" else w.cfg.qbitAction)
    (if w.cfg.qbitTag = "" then "Supprimé-Hygie" else w.cfg.qbitTag) items q

/-- `delete_now`. -/
def deleteNow (dryRun : Bool) (id : ℤ) (q : QueueTable) : Act QueueTable :=
  if dryRun then
    match (q.getById id).filter (·.status = .pending) with
    | none => pure q
    | some row => do
        let _ ← deleteMedia cfg row.toItem true "tag_only" "Supprimé-Hygie"
        pure q
  else
    match q.claimForDeletion id with
    | none => pure q
    | some q =>
        match q.getById id with
        | none => pure q
        | some row => do
            let ok ← deleteMedia cfg row.toItem false "tag_only" "Supprimé-Hygie"
            pure (q.updateStatus id (if ok then .deleted else .pending))

/-- The loop of `bulk` over the rows that it read. -/
def bulkLoop (dryRun : Bool) : List QueueRow → QueueTable → Act QueueTable
  | [], q => pure q
  | row :: rows, q => do
      let ok ← deleteMedia cfg row.toItem dryRun "tag_only" "Supprimé-Hygie"
      bulkLoop dryRun rows (if ok then q.updateStatus row.id .deleted else q)

/-- `bulk` with the action `delete`. -/
def bulkDelete (dryRun : Bool) (ids : List ℤ) (q : QueueTable) : Act QueueTable :=
  bulkLoop cfg dryRun (q.rows.filter fun row => row.id ∈ ids) q

end Entry

/-- The entry points of a deletion: the job, which runs at some moment and reads the watch state,
and the two requests. -/
inductive EntryPoint
  | runDeletion (now : Instant) (w : WatchSources) (libraries : List Library)
  | deleteNow (id : ℤ)
  | bulkDelete (ids : List ℤ)

namespace EntryPoint

/-- What an entry point does. -/
def execute (rt : Runtime) (cfg : Config) (dryRun : Bool) (q : QueueTable) :
    EntryPoint → Act QueueTable
  | .runDeletion now w libraries => Hygie.runDeletion { rt with now := now } w libraries dryRun q
  | .deleteNow id => Hygie.deleteNow cfg dryRun id q
  | .bulkDelete ids => Hygie.bulkDelete cfg dryRun ids q

/-- The entry point takes the row off the queue because it was played since. -/
def Rescues (rt : Runtime) (row : QueueRow) : EntryPoint → Prop
  | .runDeletion now w libraries => isDue { rt with now := now } row = true ∧
      ∃ row', refreshed { rt with now := now } w libraries row = some row' ∧
        StoredSince { rt with now := now } row'
  | _ => False

end EntryPoint

/-! ### What a dry run should leave behind -/

/-- The queue after a dry run: it has the rows that were not rescued, each with its status, and a
run at a later moment selects them as it would have. -/
structure Undisturbed (rt : Runtime) (rescued : QueueRow → Prop) (q q' : QueueTable) : Prop where
  keeps : ∀ row ∈ q.rows, rescued row ∨ ∃ row' ∈ q'.rows, row'.id = row.id
  status : ∀ row' ∈ q'.rows, ∃ row ∈ q.rows, row'.id = row.id ∧ row'.status = row.status
  later : ∀ now w libraries, ∀ row ∈ q.rows, ¬ rescued row →
    (IsSelected { rt with now := now } w libraries q' row ↔
      IsSelected { rt with now := now } w libraries q row)

/-- **A dry run touches nothing**: no request removes or tags anything, and the queue is
undisturbed. -/
def EntryPoint.TouchesNothing (holds : ∀ q : Query, q.Body → Prop) (rt : Runtime) (cfg : Config)
    (e : EntryPoint) (q : QueueTable) : Prop :=
  Prog.wp (Permits holds) (fun query => query.touches = false) (e.execute rt cfg true q)
    (Undisturbed rt (fun row => e.Rescues rt row) q) fun _ => False

variable {rt : Runtime} {w : WatchSources} {libraries : List Library} {cfg : Config}
  {holds : ∀ q : Query, q.Body → Prop} {P : Query → Prop} {q : QueueTable} {row row' : QueueRow}

/-! ### A selection disturbs nothing -/

/-- What the media server reports of a row does not depend on its plays. -/
theorem reportedPlay_eq {serverId : String} {activity : Activity}
    (h : row'.withoutPlays = row.withoutPlays) :
    reportedPlay w row' serverId activity = reportedPlay w row serverId activity := by
  have hrow : ∀ row : QueueRow, reportedPlay w row serverId activity =
      reportedPlay w row.withoutPlays serverId activity := fun _ => rfl
  rw [hrow row', h, ← hrow row]

/-- The row goes on: its server cannot be contacted, or the log can be read and reports no play
since; and no such play is stored. -/
theorem goesOn_iff :
    (∃ row', refreshed rt w libraries row = some row' ∧ ¬ StoredSince rt row') ↔
      ¬ StoredSince rt row ∧
        (Contactable (getClient w.cfg (libraryServer libraries row.libraryId)) →
          ∃ activity,
            (w.server (libraryServer libraries row.libraryId)).getPlayActivity = some activity ∧
              ∀ played, reportedPlay w row (libraryServer libraries row.libraryId) activity =
                some played → ¬ IsSince rt row played) := by
  simp only [refreshed]
  split_ifs with hclient
  · rw [imp_iff_right hclient]
    cases (w.server (libraryServer libraries row.libraryId)).getPlayActivity with
    | none => simp
    | some activity =>
        simp only [Option.map_some, Option.some.injEq, exists_eq_left', refreshRow]
        cases reportedPlay w row (libraryServer libraries row.libraryId) activity with
        | none => simp
        | some played => simp [storedSince_advanceLastPlayed]
  · simp [hclient]

/-- Whether a play is stored since depends on the last play and on when the row was put on the
queue. -/
theorem storedSince_congr (hplays : row'.withoutPlays = row.withoutPlays)
    (hlast : row'.lastPlayed = row.lastPlayed) : StoredSince rt row' ↔ StoredSince rt row := by
  have hdetected : row'.detectedAt = row.detectedAt := (congrArg (·.detectedAt) hplays :)
  simp only [StoredSince, IsSince, hlast, hdetected]

theorem isDue_congr (hplays : row'.withoutPlays = row.withoutPlays) :
    isDue rt row' = isDue rt row := by
  have hstatus : row'.status = row.status := (congrArg (·.status) hplays :)
  have hdelete : row'.deleteAt = row.deleteAt := (congrArg (·.deleteAt) hplays :)
  simp only [isDue, hstatus, hdelete]

/-- **Two rows that differ in their plays only** are selected alike, if no play is stored since in
one of them only. -/
theorem isSelected_congr {q' : QueueTable} (hrow : row ∈ q.rows) (hrow' : row' ∈ q'.rows)
    (hplays : row'.withoutPlays = row.withoutPlays)
    (hstored : StoredSince rt row' ↔ StoredSince rt row) :
    IsSelected rt w libraries q' row' ↔ IsSelected rt w libraries q row := by
  have hlibrary : row'.libraryId = row.libraryId := (congrArg (·.libraryId) hplays :)
  have hdetected : row'.detectedAt = row.detectedAt := (congrArg (·.detectedAt) hplays :)
  simp only [isSelected_iff hrow, isSelected_iff hrow', goesOn_iff, isDue_congr hplays, hstored,
    hlibrary, reportedPlay_eq hplays, IsSince, hdetected]

/-- **A selection leaves the other rows as they were**: a row that it does not take off the queue is
selected later as if it had not been. -/
theorem exists_selectItemsToDelete (hrow : row ∈ q.rows)
    (hrescued : ¬ (isDue rt row = true ∧
      ∃ new, refreshed rt w libraries row = some new ∧ StoredSince rt new)) :
    ∃ left ∈ (selectItemsToDelete rt w libraries q).2.rows,
      left.withoutPlays = row.withoutPlays ∧ (StoredSince rt left ↔ StoredSince rt row) := by
  have hstays : ∃ left ∈ (selectItemsToDelete rt w libraries q).2.rows,
      left.withoutPlays = row.withoutPlays :=
    exists_left hrow fun other hother hdue new hnew hwatched hid => by
      obtain rfl := q.eq_of_id hrow hother hid
      exact hrescued ⟨hdue, new, hnew, isWatchedSince_iff.1 hwatched⟩
  obtain ⟨left, hleft, hplays⟩ := hstays
  refine ⟨left, hleft, hplays, ?_⟩
  obtain ⟨old, hold, hplays', hlast⟩ :=
    QueueTable.lastPlayed_foldl (mem_selectItemsToDelete_table.1 hleft).1
  obtain rfl : old = row := by
    have hid : old.withoutPlays.id = row.withoutPlays.id := by rw [← hplays', hplays]
    exact q.eq_of_id hold hrow hid
  rcases hlast with hlast | ⟨write, hwrite, hembyId, hlast⟩
  · exact storedSince_congr hplays hlast
  · -- the write is the one of this row, and the row was not played since
    obtain ⟨due, hdue, hid, hclient, activity, hactivity, hplayed⟩ :=
      mem_refreshWatchState_writes hwrite
    obtain ⟨hmem, hisDue⟩ := List.mem_filter.1 hdue
    obtain rfl := q.eq_of_embyId hmem hold (hid.symm.trans hembyId)
    have hrefreshed : refreshed rt w libraries due = some (refreshRow rt w
        (libraryServer libraries due.libraryId) activity due) := by
      simp only [refreshed, if_pos hclient, hactivity, Option.map_some]
    have hnot : ¬ (StoredSince rt due ∨ IsSince rt due write.played) := fun h =>
      hrescued ⟨hisDue, _, hrefreshed, by
        simpa only [refreshRow, hplayed, storedSince_advanceLastPlayed] using h⟩
    have hdetected : left.detectedAt = due.detectedAt := (congrArg (·.detectedAt) hplays :)
    have hleft : StoredSince rt left ↔ IsSince rt due write.played := by
      simp [StoredSince, IsSince, hlast, hdetected]
    rw [hleft]
    exact iff_of_false (fun h => hnot (.inr h)) fun h => hnot (.inl h)

theorem undisturbed_refl {rescued : QueueRow → Prop} : Undisturbed rt rescued q q where
  keeps row hrow := .inr ⟨row, hrow, rfl⟩
  status row hrow := ⟨row, hrow, rfl, rfl⟩
  later _ _ _ _ _ _ := Iff.rfl

/-- **A selection disturbs nothing** but the rows that it rescues. -/
theorem undisturbed_selectItemsToDelete {now : Instant} :
    Undisturbed rt (fun row => (EntryPoint.runDeletion now w libraries).Rescues rt row) q
      (selectItemsToDelete { rt with now := now } w libraries q).2 where
  keeps row hrow := by
    by_cases hrescued : (EntryPoint.runDeletion now w libraries).Rescues rt row
    · exact .inl hrescued
    · obtain ⟨left, hleft, hplays, _⟩ := exists_selectItemsToDelete hrow hrescued
      exact .inr ⟨left, hleft, (congrArg (·.id) hplays :)⟩
  status left hleft := by
    obtain ⟨row, hrow, hplays, _⟩ :=
      QueueTable.lastPlayed_foldl (mem_selectItemsToDelete_table.1 hleft).1
    exact ⟨row, hrow, (congrArg (·.id) hplays :), (congrArg (·.status) hplays :)⟩
  later later w' libraries' row hrow hrescued := by
    obtain ⟨left, hleft, hplays, hstored⟩ := exists_selectItemsToDelete hrow hrescued
    have hid : left.id = row.id := (congrArg (·.id) hplays :)
    have hrow' : ∀ q', IsSelected { rt with now := later } w' libraries' q' row ↔
        IsSelected { rt with now := later } w' libraries' q' left := by
      intro q'
      rw [IsSelected, IsSelected, hid]
    rw [hrow']
    exact isSelected_congr hrow hleft hplays hstored

/-! ### The dry runs of the three entry points -/

theorem executeBatch_dryRun {qbitAction qbitTag : String} {items : List Item} :
    executeBatch cfg true qbitAction qbitTag items q = pure q := by
  induction items with
  | nil => rfl
  | cons item items ih => simp only [executeBatch, deleteOne, deleteMedia, if_true, pure_bind, ih]

theorem runDeletion_dryRun :
    runDeletion rt w libraries true q = pure (selectItemsToDelete rt w libraries q).2 :=
  executeBatch_dryRun

theorem deleteNow_dryRun {id : ℤ} : deleteNow cfg true id q = pure q := by
  simp only [deleteNow, deleteMedia, if_true, pure_bind]
  split <;> rfl

theorem bulkLoop_dryRun {rows : List QueueRow} :
    bulkLoop cfg true rows q =
      pure (rows.foldl (fun q row => q.updateStatus row.id .deleted) q) := by
  induction rows generalizing q with
  | nil => rfl
  | cons row rows ih => simp only [bulkLoop, deleteMedia, if_true, pure_bind, ih, List.foldl_cons]

/-- Recording a status that the row has changes nothing. -/
theorem updateStatus_eq_self {id : ℤ} {status : Status}
    (h : ∀ row ∈ q.rows, row.id = id → row.status = status) : q.updateStatus id status = q := by
  refine QueueTable.ext ?_ rfl
  have hsame : ∀ row ∈ q.rows, QueueTable.setWhere (fun row => row.id = id)
      (fun row => { row with status := status }) row = row := by
    intro row hrow
    simp only [QueueTable.setWhere]
    split_ifs with hid
    · rw [← h row hrow (of_decide_eq_true hid)]
    · rfl
  exact (List.map_congr_left hsame).trans (List.map_id' q.rows)

theorem foldl_updateStatus_eq_self {rows : List QueueRow}
    (h : ∀ row ∈ rows, ∀ other ∈ q.rows, other.id = row.id → other.status = .deleted) :
    rows.foldl (fun q row => q.updateStatus row.id .deleted) q = q := by
  induction rows with
  | nil => rfl
  | cons row rows ih =>
      rw [List.foldl_cons, updateStatus_eq_self (h row (List.mem_cons_self ..))]
      exact ih fun other hother => h other (List.mem_cons_of_mem _ hother)

/-- The loop leaves every row deleted that it comes to, or that was deleted before. -/
theorem exists_foldl_updateStatus (rows : List QueueRow) {id : ℤ}
    (h : ∃ row ∈ q.rows, row.id = id ∧ (row.status = .deleted ∨ ∃ r ∈ rows, r.id = id)) :
    ∃ row ∈ (rows.foldl (fun q row => q.updateStatus row.id .deleted) q).rows,
      row.id = id ∧ row.status = .deleted := by
  induction rows generalizing q with
  | nil =>
      obtain ⟨row, hrow, hid, hdeleted | ⟨_, hnil, _⟩⟩ := h
      · exact ⟨row, hrow, hid, hdeleted⟩
      · cases hnil
  | cons first rows ih =>
      obtain ⟨row, hrow, hid, hstatus⟩ := h
      refine ih ⟨_, QueueTable.mem_update.2 ⟨row, hrow, rfl⟩, ?_⟩
      simp only [QueueTable.setWhere, decide_eq_true_eq]
      split_ifs with hfirst
      · exact ⟨hid, .inl rfl⟩
      · refine ⟨hid, hstatus.imp_right fun hlisted => ?_⟩
        obtain ⟨r, hr, hr'⟩ := hlisted
        rcases List.mem_cons.1 hr with rfl | hr
        · exact absurd (hid.trans hr'.symm) hfirst
        · exact ⟨r, hr, hr'⟩

/-! ### When a dry run touches nothing -/

/-- **Exactly when a dry run touches nothing**: it is not a bulk request, or each row that the
request selects is deleted already. -/
theorem touchesNothing_iff {e : EntryPoint} :
    e.TouchesNothing holds rt cfg q ↔
      ∀ ids, e = .bulkDelete ids → ∀ row ∈ q.rows, row.id ∈ ids → row.status = .deleted := by
  cases e with
  | runDeletion now w libraries =>
      refine iff_of_true ?_ nofun
      rw [EntryPoint.TouchesNothing, EntryPoint.execute, runDeletion_dryRun, Prog.wp_pure]
      exact undisturbed_selectItemsToDelete
  | deleteNow id =>
      refine iff_of_true ?_ nofun
      rw [EntryPoint.TouchesNothing, EntryPoint.execute, deleteNow_dryRun, Prog.wp_pure]
      exact undisturbed_refl
  | bulkDelete ids =>
      rw [EntryPoint.TouchesNothing, EntryPoint.execute, bulkDelete, bulkLoop_dryRun, Prog.wp_pure]
      constructor
      · intro h ids' hids row hrow hid
        obtain rfl := EntryPoint.bulkDelete.inj hids
        obtain ⟨row', hrow', hid', hdeleted⟩ := exists_foldl_updateStatus
          (q.rows.filter fun row => row.id ∈ ids)
          ⟨row, hrow, rfl, .inr ⟨row, List.mem_filter.2 ⟨hrow, by simpa using hid⟩, rfl⟩⟩
        -- the recorded status is the one that the row had
        obtain ⟨old, hold, holdId, hstatus⟩ := h.status row' hrow'
        obtain rfl := q.eq_of_id hold hrow (holdId.symm.trans hid')
        rw [← hstatus, hdeleted]
      · intro h
        rw [foldl_updateStatus_eq_self]
        · exact undisturbed_refl
        · intro row hrow other hother hid
          have hselected := (List.mem_filter.1 hrow).2
          refine h ids rfl other hother ?_
          rw [hid]
          simpa using hselected

/-- A bulk request in dry-run mode records a pending row as deleted. -/
theorem not_touchesNothing_bulkDelete :
    ¬ ∀ (holds : ∀ q : Query, q.Body → Prop) (rt : Runtime) (cfg : Config) (e : EntryPoint)
      (q : QueueTable), e.TouchesNothing holds rt cfg q := by
  intro hclaim
  have hdry := hclaim (fun _ _ => True) sampleRuntime {} (.bulkDelete [7]) seriesQueue
  rw [EntryPoint.TouchesNothing, EntryPoint.execute, bulkDelete, bulkLoop_dryRun, Prog.wp_pure]
    at hdry
  obtain ⟨row, hrow, hid, hstatus⟩ := hdry.status { seriesRow with status := .deleted }
    (List.mem_singleton_self _)
  obtain rfl := List.mem_singleton.1 hrow
  exact absurd hstatus (by decide)

end Hygie
