/-
**The watch state of consolidated rows.**

A scan of a library that deletes seasons or series writes the plays of each group to its row.  The
write goes through when the text of its date is larger than the stored one.  So a group that was
watched without dates is not written at all, neither is one that was watched again on the same date,
and the row goes on with fewer views than its episodes have.  A new row knows what the eligible
episodes of its group know.

Main definitions:

* `ScanRun`, `ScanRun.after` — what a scan writes;
* `ScanRun.GroupsReflected` — the law: a pending row knows the plays of its group;
* `ScanRun.Refreshes`, `ScanRun.EligibleCover` — the conditions on a row that is there, and on a new
  one.

Main results:

* `ScanRun.mem_summed` — **the consolidated rows after the write**;
* `ScanRun.groupsReflected_iff` — **exactly when the law holds**.
-/

import Hygie.GroupSums
import Hygie.ServerIsolation

set_option relaxedAutoImplicit false
set_option autoImplicit false

namespace Hygie

/-! ### Writes to one row -/

/-- A row after a write. -/
def WatchWrite.applyTo (write : WatchWrite) (row : QueueRow) : QueueRow :=
  QueueTable.setWhere write.reaches (fun row =>
    { row with
      lastPlayed := some write.played
      viewCount := max row.viewCount write.viewCount }) row

namespace QueueTable

variable {q : QueueTable} {row row' : QueueRow} {write : WatchWrite} {writes : List WatchWrite}
  {entry : QueueEntry} {entries : List QueueEntry}

theorem embyId_applyTo : (write.applyTo row).embyId = row.embyId :=
    setWhere_embyId fun _ => ⟨rfl, rfl⟩

theorem mem_writeWatchState :
    row' ∈ (q.writeWatchState write).rows ↔ ∃ row ∈ q.rows, write.applyTo row = row' := mem_update

/-- The one write for a row is what becomes of it. -/
theorem mem_foldl_of_nodup (hnodup : (writes.map (·.embyId)).Nodup) (hwrite : write ∈ writes)
    (hid : write.embyId = row'.embyId) :
    row' ∈ (writes.foldl writeWatchState q).rows ↔ ∃ row ∈ q.rows, write.applyTo row = row' := by
  induction writes generalizing q with
  | nil => cases hwrite
  | cons first writes ih =>
      obtain ⟨hfirst, hrest⟩ := List.nodup_cons.1 hnodup
      rw [List.foldl_cons]
      rcases List.mem_cons.1 hwrite with rfl | hwrite
      · rw [mem_foldl_of_embyId, mem_writeWatchState]
        intro other hother heq
        exact hfirst (List.mem_map.2 ⟨other, hother, heq.trans hid.symm⟩)
      · have hne : first.embyId ≠ row'.embyId := by
          intro heq
          exact hfirst (List.mem_map.2 ⟨write, hwrite, hid.trans heq.symm⟩)
        rw [ih hrest hwrite]
        constructor
        · rintro ⟨row, hrow, rfl⟩
          refine ⟨row, (mem_update_of_embyId fun old _ hold => ?_).1 hrow, rfl⟩
          rw [embyId_applyTo] at hne
          exact WatchWrite.reaches_of_ne (hold ▸ hne)
        · rintro ⟨row, hrow, rfl⟩
          refine ⟨row, (mem_update_of_embyId fun old _ hold => ?_).2 hrow, rfl⟩
          rw [embyId_applyTo] at hne
          exact WatchWrite.reaches_of_ne (hold ▸ hne)

/-- Insertions leave the rows as they are, and add rows of entries that were not there. -/
theorem of_mem_foldl_insertOrIgnore (h : row ∈ (entries.foldl insertOrIgnore q).rows) :
    row ∈ q.rows ∨ ∃ entry ∈ entries, entry.embyId ∉ q.rows.map (·.embyId) ∧
      row.toQueueEntry = entry ∧ row.status = .pending := by
  induction entries generalizing q with
  | nil => exact .inl h
  | cons entry entries ih =>
      rcases ih h with hmem | ⟨other, hother, hnew, hrow⟩
      · rcases mem_insertOrIgnore.1 hmem with hold | ⟨hnew, rfl⟩
        · exact .inl hold
        · exact .inr ⟨entry, List.mem_cons_self .., hnew, rfl, rfl⟩
      · refine .inr ⟨other, List.mem_cons_of_mem _ hother, fun hmem => hnew ?_, hrow⟩
        obtain ⟨old, hold, hid⟩ := List.mem_map.1 hmem
        exact List.mem_map.2 ⟨old, mem_insertOrIgnore.2 (.inl hold), hid⟩

theorem mem_foldl_insertOrIgnore_of_mem (h : row ∈ q.rows) :
    row ∈ (entries.foldl insertOrIgnore q).rows := by
  induction entries generalizing q with
  | nil => exact h
  | cons entry entries ih => exact ih (mem_insertOrIgnore.2 (.inl h))

/-- An entry that is not there becomes a row. -/
theorem exists_foldl_insertOrIgnore (hnodup : (entries.map (·.embyId)).Nodup)
    (hentry : entry ∈ entries)
    (hnew : entry.embyId ∉ q.rows.map (·.embyId)) :
    ∃ row ∈ (entries.foldl insertOrIgnore q).rows, row.toQueueEntry = entry ∧
      row.status = .pending := by
  induction entries generalizing q with
  | nil => cases hentry
  | cons first entries ih =>
      obtain ⟨hfirst, hrest⟩ := List.nodup_cons.1 hnodup
      rw [List.foldl_cons]
      rcases List.mem_cons.1 hentry with rfl | hentry
      · refine ⟨q.newRow entry, mem_foldl_insertOrIgnore_of_mem ?_, rfl, rfl⟩
        exact mem_insertOrIgnore.2 (.inr ⟨hnew, rfl⟩)
      · refine ih hrest hentry fun hmem => ?_
        obtain ⟨old, hold, hid⟩ := List.mem_map.1 hmem
        rcases mem_insertOrIgnore.1 hold with hold | ⟨_, rfl⟩
        · exact hnew (List.mem_map.2 ⟨old, hold, hid⟩)
        · exact hfirst (List.mem_map.2 ⟨entry, hentry, hid.symm⟩)

end QueueTable

/-! ### What a scan writes -/

/-- A scan of a library that has read all pages: the items with their user data, the activity log,
and which of its statements fail. -/
structure ScanRun where
  f : Fleet
  requests : RequestCache
  sc : LibraryScan
  items : List ScannedItem
  plays : List (String × String)
  /-- How a last play is written, with the offset that its date came with. -/
  iso : String → Instant → String
  logFails : Bool := false
  watchFails : Bool := false
  sent : QueueEntry → Bool := fun _ => false

namespace ScanRun

variable (s : ScanRun)

/-- The items that go on the queue, or would go there if their groups are complete. -/
def eligible : List QueueEntry := s.items.filterMap (collectItem s.f.rt s.requests s.sc)

/-- An item that the conditions select and that is queued already has its row written. -/
def rewritesItem (item : ScannedItem) : Bool :=
  match item.dateCreated.parse with
  | none => false
  | some added =>
      item.id ≠ "" && item.path ≠ "" &&
        evaluateConditions s.f.rt.now s.sc.lib.conditions s.sc.lib.logic (some added)
          item.state.lastPlayed item.state.playCount item.state.neverWatched &&
        item.id ∈ s.sc.queuedIds

/-- What `_collect_eligible_items` writes. -/
def collected (db : Database) : Database :=
  (s.items.filter s.rewritesItem).foldl (fun db item =>
    s.f.apply db (.alreadyQueued item.id s.sc.grace (item.state.lastPlayed.map (s.iso item.id))
      item.state.playCount)) db

/-- The table before the sums are written. -/
def before (db : Database) : Database :=
  s.collected (if s.logFails then db else s.f.apply db (.activityLog s.plays))

/-- The table after the sums are written. -/
def summed (db : Database) : Database :=
  if s.watchFails then s.before db
  else s.f.apply (s.before db)
    (.consolidatedWatch (consolidatedParams s.iso s.sc.sonarrCache s.items))

/-- `_scan_library` for a library whose deletion unit is the season or the series. -/
def after (db : Database) : Database :=
  (insertEligibleEntries s.f.rt s.sc s.eligible).foldl (fun db entry =>
    s.f.apply db (.insertEntry entry (s.sent entry))) (s.summed db)

/-- A row knows the plays of its group: its last play is at least as late, and it has as many views,
as every item of its series or season. -/
def ReflectsGroup (row : QueueEntry) : Prop :=
  ∀ item ∈ s.items, row.embyId ∈ item.watchKeys s.sc.sonarrCache →
    NotLater item.state.lastPlayed (row.lastPlayed.bind s.f.rt.parseIsoDt) ∧
      item.state.playCount ≤ row.viewCount

/-- **The law**: after a scan, every pending consolidated row of the library knows the plays of its
group. -/
def GroupsReflected (db : Database) : Prop :=
  ∀ row ∈ (s.after db).queue.rows, row.status = .pending → row.libraryId = s.sc.lib.id →
    isConsolidatedId row.embyId = true → s.ReflectsGroup row.toQueueEntry

/-- The write of its group reaches a row: it does not fail, some item of the group has a date, and
the stored date is absent, or has a smaller text than the latest one of the group. -/
def Refreshes (row : QueueEntry) : Prop :=
  s.watchFails = false ∧ ∃ t, IsGreatest (groupPlays s.sc.sonarrCache s.items row.embyId) t ∧
    ∀ date, row.lastPlayed = some date → date = "" ∨ date < s.iso row.embyId t

/-- A group is inserted: it is complete, and it is not queued. -/
def Completes (db : Database) (key : GroupKey) : Prop :=
  0 < cachedTotal s.sc.sonarrCache key ∧
    (groupOf s.sc.deletionUnit s.eligible key).length = cachedTotal s.sc.sonarrCache key ∧
    groupEmbyId key ∉ s.sc.queuedIds ∧ groupEmbyId key ∉ db.queue.rows.map (·.embyId)

/-- For every item of the group, the eligible episodes of the group have a play that is at least as
late, and one of them has as many views. -/
def EligibleCover (key : GroupKey) : Prop :=
  ∀ item ∈ s.items, groupEmbyId key ∈ item.watchKeys s.sc.sonarrCache →
    (∃ ep ∈ groupOf s.sc.deletionUnit s.eligible key,
      NotLater item.state.lastPlayed ((truthyText ep.lastPlayed).bind s.f.rt.parseIsoDt)) ∧
    ∃ ep ∈ groupOf s.sc.deletionUnit s.eligible key, item.state.playCount ≤ ep.viewCount

/-- The identifiers that the media server gives are no synthetic ones, and a date that the scan
writes is read as the moment that it is. -/
structure Genuine : Prop where
  items : ∀ item ∈ s.items, isConsolidatedId item.id = false
  plays : ∀ play ∈ s.plays, isConsolidatedId play.1 = false
  dates : ∀ key, ∀ t ∈ groupPlays s.sc.sonarrCache s.items key,
    s.f.rt.parseIsoDt (s.iso key t) = some t

variable {s : ScanRun} {db : Database} {row row' : QueueRow} {key : GroupKey} {entry : QueueEntry}

/-! ### The consolidated rows -/

/-- A rewritten item leaves the rows of other items alone. -/
theorem mem_updateDeleteAtIfPending {f : Fleet} {embyId : String} {grace : Option ℤ → ℤ}
    {lastPlayed : Option String} {playCount : ℤ} (hne : embyId ≠ row.embyId) :
    row ∈ (f.updateDeleteAtIfPending db embyId grace lastPlayed playCount).queue.rows ↔
      row ∈ db.queue.rows := by
  simp only [Fleet.updateDeleteAtIfPending]
  split
  · exact Iff.rfl
  · next found hfind =>
      obtain ⟨hembyId, _⟩ : found.embyId = embyId ∧ found.status = .pending := by
        simpa using List.find?_some hfind
      split
      · exact Iff.rfl
      · apply QueueTable.mem_update_of_embyId
        · exact fun _ => ⟨rfl, rfl⟩
        · intro old hold hid
          by_contra hsame
          obtain rfl := db.queue.eq_of_id hold (List.mem_of_find?_eq_some hfind)
              (by simpa using hsame)
          exact hne (hembyId.symm.trans hid)

theorem mem_collected (hgen : s.Genuine) (hid : isConsolidatedId row.embyId = true) :
    row ∈ (s.collected db).queue.rows ↔ row ∈ db.queue.rows := by
  have hfold : ∀ l : List ScannedItem, (∀ item ∈ l, isConsolidatedId item.id = false) →
      ∀ db : Database,
      row ∈ (l.foldl (fun db item => s.f.apply db (.alreadyQueued item.id s.sc.grace
        (item.state.lastPlayed.map (s.iso item.id)) item.state.playCount)) db).queue.rows ↔
        row ∈ db.queue.rows := by
    intro l
    induction l with
    | nil => exact fun _ _ => Iff.rfl
    | cons item l ih =>
        intro hids db
        rw [List.foldl_cons, ih fun other h => hids other (List.mem_cons_of_mem _ h)]
        refine mem_updateDeleteAtIfPending fun heq => ?_
        have hreal := hids item (List.mem_cons_self ..)
        rw [heq, hid] at hreal
        cases hreal
  exact hfold _ (fun item h => hgen.items item (List.mem_of_mem_filter h)) db

/-- Until the sums are written, the consolidated rows are as they were. -/
theorem mem_before (hgen : s.Genuine) (hid : isConsolidatedId row.embyId = true) :
    row ∈ (s.before db).queue.rows ↔ row ∈ db.queue.rows := by
  rw [before, mem_collected hgen hid]
  split_ifs
  · exact Iff.rfl
  · refine QueueTable.mem_foldl_of_embyId fun write hwrite heq => ?_
    obtain ⟨play, hplay, rfl⟩ := List.mem_map.1 hwrite
    have hreal := hgen.plays play (List.mem_of_mem_filter hplay)
    rw [show play.1 = row.embyId from heq, hid] at hreal
    cases hreal

/-- What becomes of a row that is there: the write of its group is applied to it. -/
def groupRow (s : ScanRun) (row : QueueRow) : QueueRow :=
  if s.watchFails then row
  else
    match (consolidatedParams s.iso s.sc.sonarrCache s.items).find? (·.embyId = row.embyId) with
    | none => row
    | some write => write.applyTo row

theorem groupRow_same (s : ScanRun) (row : QueueRow) :
    (s.groupRow row).embyId = row.embyId ∧ (s.groupRow row).status = row.status ∧
      (s.groupRow row).libraryId = row.libraryId := by
  rw [groupRow]
  split_ifs
  · exact ⟨rfl, rfl, rfl⟩
  · split
    · exact ⟨rfl, rfl, rfl⟩
    · rw [WatchWrite.applyTo, QueueTable.setWhere]
      split_ifs <;> exact ⟨rfl, rfl, rfl⟩

theorem mem_summed (hgen : s.Genuine) (hid : isConsolidatedId row'.embyId = true) :
    row' ∈ (s.summed db).queue.rows ↔ ∃ row ∈ db.queue.rows, s.groupRow row = row' := by
  have hbefore : ∀ {set : QueueRow → QueueRow}, (∀ row, (set row).embyId = row.embyId) →
      ((∃ row ∈ (s.before db).queue.rows, set row = row') ↔ ∃ row ∈ db.queue.rows,
      set row = row') := by
    intro set hset
    constructor
    · rintro ⟨row, hrow, rfl⟩
      rw [hset] at hid
      exact ⟨row, (mem_before hgen hid).1 hrow, rfl⟩
    · rintro ⟨row, hrow, rfl⟩
      rw [hset] at hid
      exact ⟨row, (mem_before hgen hid).2 hrow, rfl⟩
  rw [← hbefore fun row => (groupRow_same ..).1]
  by_cases hfails : s.watchFails = true
  · simp only [summed, groupRow, hfails, if_true, exists_eq_right]
  · simp only [summed, hfails, Bool.false_eq_true, if_false, Fleet.apply]
    cases hfind : (consolidatedParams s.iso s.sc.sonarrCache s.items).find?
        (·.embyId = row'.embyId) with
    | none =>
        rw [QueueTable.mem_foldl_of_embyId fun write hwrite => by
          simpa using List.find?_eq_none.1 hfind write hwrite]
        constructor
        · intro hrow
          exact ⟨row', hrow, by simp [groupRow, hfails, hfind]⟩
        · rintro ⟨row, hrow, rfl⟩
          rw [(groupRow_same ..).1] at hfind
          simpa [groupRow, hfails, hfind] using hrow
    | some write =>
        have hembyId : write.embyId = row'.embyId := by simpa using List.find?_some hfind
        rw [QueueTable.mem_foldl_of_nodup nodup_consolidatedParams (List.mem_of_find?_eq_some hfind)
          hembyId]
        constructor
        · rintro ⟨row, hrow, rfl⟩
          rw [QueueTable.embyId_applyTo] at hfind
          exact ⟨row, hrow, by simp [groupRow, hfails, hfind]⟩
        · rintro ⟨row, hrow, rfl⟩
          rw [(groupRow_same ..).1] at hfind
          exact ⟨row, hrow, by simp [groupRow, hfails, hfind]⟩

/-- A group is queued before its sum is written if and only if it is afterwards. -/
theorem mem_embyIds_summed (hgen : s.Genuine) {id : String} (hid : isConsolidatedId id = true) :
    id ∈ (s.summed db).queue.rows.map (·.embyId) ↔ id ∈ db.queue.rows.map (·.embyId) := by
  simp only [List.mem_map]
  constructor
  · rintro ⟨row', hrow', rfl⟩
    obtain ⟨row, hrow, rfl⟩ := (mem_summed hgen hid).1 hrow'
    exact ⟨row, hrow, (groupRow_same ..).1.symm⟩
  · rintro ⟨row, hrow, rfl⟩
    have hmem : s.groupRow row ∈ (s.summed db).queue.rows :=
      (mem_summed hgen (by rwa [(groupRow_same ..).1])).2 ⟨row, hrow, rfl⟩
    exact ⟨_, hmem, (groupRow_same ..).1⟩

/-- The condition on a row that is there. -/
theorem reflectsGroup_groupRow_iff (hgen : s.Genuine) (hpending : row.status = .pending) :
    s.ReflectsGroup (s.groupRow row).toQueueEntry ↔
      s.Refreshes row.toQueueEntry ∨ s.ReflectsGroup row.toQueueEntry := by
  by_cases hfails : s.watchFails = true
  · rw [groupRow, if_pos hfails]
    exact ⟨.inr, fun h =>
      h.resolve_left fun hrefreshes => by simp [Refreshes, hfails] at hrefreshes⟩
  · rw [groupRow, if_neg hfails]
    split
    · next hnone =>
        refine ⟨.inr, fun h => h.resolve_left ?_⟩
        rintro ⟨_, t, ht, _⟩
        -- a group with a date is written
        have hmem : (⟨s.iso row.embyId t,
            ((consolidatedWatch s.sc.sonarrCache s.items).sum row.embyId).2,
            row.embyId⟩ : WatchWrite) ∈
              consolidatedParams s.iso s.sc.sonarrCache s.items :=
          mem_consolidatedParams.2 ⟨t, ht, rfl, rfl⟩
        simpa using List.find?_eq_none.1 hnone _ hmem
    · next write hfind =>
        have hembyId : write.embyId = row.embyId := by simpa using List.find?_some hfind
        obtain ⟨t, ht, hplayed, hcount⟩ :=
          mem_consolidatedParams.1 (List.mem_of_find?_eq_some hfind)
        rw [hembyId] at ht hplayed hcount
        have hreaches : write.reaches row = true ↔ s.Refreshes row.toQueueEntry := by
          simp only [WatchWrite.reaches, hembyId, hpending, decide_true, Bool.true_and, Refreshes,
            hfails, true_and]
          constructor
          · intro h
            refine ⟨t, ht, fun date hdate => ?_⟩
            simpa [hdate, hplayed] using h
          · rintro ⟨u, hu, hdate⟩
            obtain rfl := hu.unique ht
            cases hstored : row.lastPlayed with
            | none => rfl
            | some date => simpa [hplayed] using hdate date hstored
        rw [WatchWrite.applyTo, QueueTable.setWhere]
        split_ifs with hreached
        · refine iff_of_true (fun item hitem hkey => ⟨?_, ?_⟩) (.inl (hreaches.1 hreached))
          · rw [show (some write.played).bind s.f.rt.parseIsoDt = some t from by
              rw [hplayed]; exact hgen.dates _ t ht.1]
            exact latest_consolidatedWatch.1
              (fun u hu => ⟨t, rfl, (sum_eq_some_iff.1 hu).unique ht ▸ le_rfl⟩)
              item hitem hkey
          · have hsum := (count_consolidatedWatch.1 (le_refl
              ((consolidatedWatch s.sc.sonarrCache s.items).sum row.embyId).2)).2 item hitem hkey
            exact (hsum.trans hcount.ge).trans (le_max_right ..)
        · exact ⟨.inr, fun h => h.resolve_left fun hrefreshes => hreached (hreaches.2 hrefreshes)⟩

/-! ### New rows -/

/-- An entry for an item of the library carries its views. -/
theorem of_mem_eligible (h : entry ∈ s.eligible) :
    0 ≤ entry.viewCount ∧ entry.libraryId = s.sc.lib.id := by
  obtain ⟨item, _, hitem⟩ := List.mem_filterMap.1 h
  obtain ⟨_, _, _, _, _, rfl⟩ := exists_buildEntry hitem
  exact ⟨playCount_nonneg, rfl⟩

/-- The condition on a new row. -/
theorem reflectsGroup_entry_iff
    (hentry : consolidatedEntry s.f.rt.parseIsoDt s.sc.sonarrCache key
      (groupOf s.sc.deletionUnit s.eligible key) = some entry) :
    s.ReflectsGroup entry ↔ s.EligibleCover key := by
  obtain ⟨anchor, hanchor, rfl⟩ := Option.map_eq_some_iff.1 hentry
  have hne : groupOf s.sc.deletionUnit s.eligible key ≠ [] :=
    List.ne_nil_of_mem (List.argmax_mem hanchor)
  have hviews : ∀ ep ∈ groupOf s.sc.deletionUnit s.eligible key, 0 ≤ ep.viewCount :=
    fun ep hep => (of_mem_eligible (List.mem_of_mem_filter hep)).1
  simp only [ReflectsGroup, EligibleCover, notLater_groupWatchState_iff hne,
    le_groupWatchState_iff hne hviews]

/-- A deletion unit that groups consolidates. -/
theorem insertEligibleEntries_eq (hunit : s.sc.deletionUnit ≠ .episode) :
    insertEligibleEntries s.f.rt s.sc s.eligible =
      consolidateAndInsert s.f.rt.parseIsoDt s.eligible s.sc.sonarrCache s.sc.deletionUnit
        (some s.sc.queuedIds) := by
  rw [insertEligibleEntries]
  cases hsame : s.sc.deletionUnit with
  | episode => exact absurd hsame hunit
  | season => rfl
  | series => rfl

/-- The entries of a scan, for a deletion unit that groups. -/
theorem mem_inserted_iff (hunit : s.sc.deletionUnit ≠ .episode) :
    entry ∈ insertEligibleEntries s.f.rt s.sc s.eligible ↔
      ∃ key, (0 < cachedTotal s.sc.sonarrCache key ∧
          (groupOf s.sc.deletionUnit s.eligible key).length = cachedTotal s.sc.sonarrCache key) ∧
        groupEmbyId key ∉ s.sc.queuedIds ∧
        consolidatedEntry s.f.rt.parseIsoDt s.sc.sonarrCache key
          (groupOf s.sc.deletionUnit s.eligible key) = some entry := by
  rw [insertEligibleEntries_eq hunit]
  exact mem_consolidateAndInsert_iff

theorem nodup_inserted (hunit : s.sc.deletionUnit ≠ .episode) :
    ((insertEligibleEntries s.f.rt s.sc s.eligible).map (·.embyId)).Nodup := by
  rw [insertEligibleEntries_eq hunit, consolidateAndInsert,
    insertNew_eq_filter nodup_completeEntries]
  exact nodup_completeEntries.sublist (List.filter_sublist.map _)

theorem queue_after :
    (s.after db).queue = (insertEligibleEntries s.f.rt s.sc s.eligible).foldl
      QueueTable.insertOrIgnore
      (s.summed db).queue := by
  have hfold : ∀ (entries : List QueueEntry) (db : Database),
      (entries.foldl (fun db entry => s.f.apply db (.insertEntry entry (s.sent entry))) db).queue =
        entries.foldl QueueTable.insertOrIgnore db.queue := by
    intro entries
    induction entries with
    | nil => exact fun _ => rfl
    | cons entry entries ih =>
        intro db
        rw [List.foldl_cons, List.foldl_cons, ih, Fleet.queue_insertEntry]
  exact hfold _ _

/-! ### The law -/

/-- **Exactly when the law holds.** -/
theorem groupsReflected_iff (hunit : s.sc.deletionUnit ≠ .episode) (hgen : s.Genuine) :
    s.GroupsReflected db ↔
      (∀ row ∈ db.queue.rows, row.status = .pending → row.libraryId = s.sc.lib.id →
        isConsolidatedId row.embyId = true →
          s.Refreshes row.toQueueEntry ∨ s.ReflectsGroup row.toQueueEntry) ∧
      ∀ key, s.Completes db key → s.EligibleCover key := by
  constructor
  · intro hlaw
    -- a row that was there stays through the insertions; a complete group has an anchor, and its
    -- entry becomes a row
    refine ⟨fun row hrow hpending hlibrary hid => ?_, fun key ⟨htotal, hlength, hnew, hfresh⟩ => ?_⟩
    · obtain ⟨hembyId, hstatus, hlib⟩ := groupRow_same s row
      refine (reflectsGroup_groupRow_iff hgen hpending).1 (hlaw _ ?_ (hstatus.trans hpending)
        (hlib.trans hlibrary) (by rwa [hembyId]))
      rw [queue_after]
      refine QueueTable.mem_foldl_insertOrIgnore_of_mem ?_
      exact (mem_summed hgen (by rwa [hembyId])).2 ⟨row, hrow, rfl⟩
    · have hne : groupOf s.sc.deletionUnit s.eligible key ≠ [] := by
        intro hnil
        rw [hnil] at hlength
        exact htotal.ne hlength
      obtain ⟨anchor, hanchor⟩ : ∃ anchor,
          (groupOf s.sc.deletionUnit s.eligible key).argmax (·.deleteAt) = some anchor :=
        Option.ne_none_iff_exists'.1 fun h => hne (List.argmax_eq_none.1 h)
      have hentry : consolidatedEntry s.f.rt.parseIsoDt s.sc.sonarrCache key
          (groupOf s.sc.deletionUnit s.eligible key) = some _ :=
        Option.map_eq_some_iff.2 ⟨anchor, hanchor, rfl⟩
      have hinserted := (mem_inserted_iff hunit).2 ⟨key, ⟨htotal, hlength⟩, hnew, hentry⟩
      obtain ⟨row, hrow, hsame, hpending⟩ :=
        QueueTable.exists_foldl_insertOrIgnore (nodup_inserted hunit)
        hinserted (q := (s.summed db).queue) (by
          rw [embyId_consolidatedEntry hentry,
            mem_embyIds_summed hgen (isConsolidatedId_groupEmbyId key)]
          exact hfresh)
      rw [← queue_after] at hrow
      refine (reflectsGroup_entry_iff hentry).1 ?_
      rw [← hsame]
      have hembyId : row.embyId = groupEmbyId key := by rw [hsame]
      refine hlaw row hrow hpending ?_ (hembyId ▸ isConsolidatedId_groupEmbyId key)
      rw [hsame]
      exact (of_mem_eligible (List.mem_of_mem_filter (List.argmax_mem hanchor))).2
  · rintro ⟨hrows, hnew⟩ row' hrow' hpending hlibrary hid
    rw [queue_after] at hrow'
    rcases QueueTable.of_mem_foldl_insertOrIgnore hrow' with hmem | ⟨entry, hinserted, hfresh,
      hsame, _⟩
    · obtain ⟨row, hrow, rfl⟩ := (mem_summed hgen hid).1 hmem
      obtain ⟨hembyId, hstatus, hlib⟩ := groupRow_same s row
      exact (reflectsGroup_groupRow_iff hgen (hstatus.symm.trans hpending)).2
        (hrows row hrow (hstatus.symm.trans hpending) (hlib.symm.trans hlibrary)
          (by rwa [hembyId] at hid))
    · obtain ⟨key, ⟨htotal, hlength⟩, hqueued, hentry⟩ := (mem_inserted_iff hunit).1 hinserted
      rw [embyId_consolidatedEntry hentry,
        mem_embyIds_summed hgen (isConsolidatedId_groupEmbyId key)] at hfresh
      rw [hsame]
      exact (reflectsGroup_entry_iff hentry).2 (hnew key ⟨htotal, hlength, hqueued, hfresh⟩)

/-! ### A series whose episode was watched -/

/-- A series of one episode, which was played at the given date. -/
def watchedSeries (date : DateText) : ScanRun where
  f :=
    { rt := isoRuntime
      libraries := [{ id := "shows", serverId := some "0" }]
      libraryId := "shows"
      isPlex := false
      itemIds := ∅
      otherIds := ∅
      thresholds := [] }
  requests _ := none
  sc :=
    { lib := { id := "shows", name := "Shows", conditions := [] }
      grace := fun _ => 7
      rules := []
      queuedIds := ["sonarr-series:304"]
      ignoredIds := []
      seerrExt := ""
      details := fun _ => {}
      cachedDetails := fun _ => {}
      deletionUnit := .series
      sonarrCache := [("/tv/Dark/E01.mkv", { seriesId := some 304, seasonNumber := some 1 })] }
  items :=
    [{ id := "e1"
       type := "Episode"
       path := "/tv/Dark/E01.mkv"
       dateCreated := .absent
       userData := [{ playCount := 1, played := true, lastPlayedDate := date }] }]
  plays := []
  iso _ _ := "2025-02-10T20:00:00+00:00"

/-- The series is on the queue. -/
def seriesDatabase : Database where
  queue := seriesQueue
  notifications := []

theorem groupPlays_watchedSeries {key : String} {t : Instant} {date : DateText}
    (h : t ∈ groupPlays (watchedSeries date).sc.sonarrCache (watchedSeries date).items key) :
    date.parse = some t := by
  obtain ⟨item, hitem, _, hplayed⟩ := h
  obtain rfl := List.mem_singleton.1 hitem
  rcases date with _ | _ | u
  · cases hplayed
  · cases hplayed
  · exact hplayed

theorem genuine_watchedSeries {date : DateText}
    (h : ∀ t, date.parse = some t → t = 1739217600000000) : (watchedSeries date).Genuine where
  items item hitem := by
    obtain rfl := List.mem_singleton.1 hitem
    simp only
    decide
  plays := nofun
  dates key t ht := by
    obtain rfl := h t (groupPlays_watchedSeries ht)
    simp only [watchedSeries, isoRuntime]
    decide +kernel

theorem mem_watchKeys_watchedSeries {date : DateText} :
    ∀ item ∈ (watchedSeries date).items, "sonarr-series:304" ∈
      item.watchKeys (watchedSeries date).sc.sonarrCache := by
  intro item hitem
  obtain rfl := List.mem_singleton.1 hitem
  have hkey : groupEmbyId (304, none) = "sonarr-series:304" := by
    rw [groupEmbyId_series]
    decide
  exact hkey ▸ List.mem_cons_self ..

/-- No condition and no rule selects the episode. -/
theorem eligible_watchedSeries {date : DateText} : (watchedSeries date).eligible = [] := by
  simp [eligible, watchedSeries, collectItem, evaluateItem, DateText.parse,
    evaluateExpertRulesFallback, evaluateExpertRules]

theorem groupsReflected_iff_dated :
    (watchedSeries (.at 1739217600000000)).GroupsReflected seriesDatabase := by
  have hgen : (watchedSeries (.at 1739217600000000)).Genuine :=
    genuine_watchedSeries fun t ht => (Option.some.inj ht).symm
  refine (groupsReflected_iff (by decide) hgen).2 ⟨fun row hrow _ _ _ => .inl ?_,
    fun key hkey => ?_⟩
  · obtain rfl := List.mem_singleton.1 hrow
    refine ⟨rfl, 1739217600000000, ⟨⟨_, List.mem_singleton_self _,
      mem_watchKeys_watchedSeries _ (List.mem_singleton_self _), rfl⟩, ?_⟩, nofun⟩
    intro t ht
    exact (Option.some.inj (groupPlays_watchedSeries ht)).ge
  · have hempty : groupOf .series (watchedSeries (.at 1739217600000000)).eligible key = [] := by
      rw [eligible_watchedSeries]
      rfl
    have hlength := hkey.2.1
    rw [show (watchedSeries (.at 1739217600000000)).sc.deletionUnit = .series from rfl,
      hempty] at hlength
    exact absurd hlength hkey.1.ne

/-- The episode was marked as watched, without a date: the row knows no views. -/
theorem not_groupsReflected_undated :
    ¬ ∀ (s : ScanRun) (db : Database), s.sc.deletionUnit ≠ .episode → s.Genuine →
      s.watchFails = false → s.logFails = false → s.GroupsReflected db := by
  intro hclaim
  have hgen : (watchedSeries .absent).Genuine := genuine_watchedSeries nofun
  have hlaw := hclaim (watchedSeries .absent) seriesDatabase (by decide) hgen rfl rfl
  have hnothing : consolidatedParams (watchedSeries .absent).iso
      (watchedSeries .absent).sc.sonarrCache
      (watchedSeries .absent).items = [] := by
    refine List.eq_nil_iff_forall_not_mem.2 fun write hwrite => ?_
    obtain ⟨t, ht, _⟩ := mem_consolidatedParams.1 hwrite
    cases groupPlays_watchedSeries ht.1
  have hsame : (watchedSeries .absent).groupRow seriesRow = seriesRow := by
    rw [groupRow, hnothing]
    rfl
  have hrow : seriesRow ∈ ((watchedSeries .absent).after seriesDatabase).queue.rows := by
    rw [queue_after]
    refine QueueTable.mem_foldl_insertOrIgnore_of_mem ((mem_summed hgen (by decide)).2 ?_)
    exact ⟨seriesRow, List.mem_singleton_self _, hsame⟩
  have hviews := (hlaw seriesRow hrow rfl rfl (by decide) _ (List.mem_singleton_self _)
    (mem_watchKeys_watchedSeries _ (List.mem_singleton_self _))).2
  exact absurd hviews (by decide)

end ScanRun

end Hygie
