/-
**Several servers and one queue.**

The rows of all media servers are in one table, and most of what the scan of a server writes is
addressed by the identifier of an item alone.  Two servers number their items independently, so that
an item of one may have the identifier of a row of another.  Then the activity log of the one writes
to the row of the other, a scan recomputes its deletion date, a Plex scrobble sets it back, and
since `emby_id` is unique an item of the other server cannot be queued any more.

The writes of a server come in any order and number here; a scan is a sequence of them.

Main definitions:

* `Writer`, `Writer.apply` — what the scans, the refresh before a deletion and the scrobbles write;
* `Fleet`, `Fleet.Enabled` — a server among others, and the writes that may come from it;
* `Fleet.Isolated` — the law: what the other servers have is as it was.

Main results:

* `Fleet.isolated_apply` — one write leaves the other servers alone when the identifiers are
  separate;
* `Fleet.isolated_iff` — **exactly when every run of writes leaves the other servers alone**.
-/

import Hygie.ConsolidatedWatch
import Hygie.GuardedRuns
import Hygie.Thresholds

set_option relaxedAutoImplicit false
set_option autoImplicit false

namespace Hygie

/-! ### The writes -/

/-- The writes that are made for one server. -/
inductive Writer
  /-- `_apply_activity_log_updates`: the last stop of each item. -/
  | activityLog (plays : List (String × String))
  /-- `_apply_consolidated_watch_updates`. -/
  | consolidatedWatch (writes : List WatchWrite)
  /-- `_update_delete_at_if_pending`, for an item that is queued already. -/
  | alreadyQueued (embyId : String) (grace : Option ℤ → ℤ) (lastPlayed : Option String)
      (playCount : ℤ)
  /-- `_insert_queue_entry`, and whether the notification was sent. -/
  | insertEntry (entry : QueueEntry) (sent : Bool)
  /-- The insertion of the Plex scanner. -/
  | insertPlexEntry (entry : QueueEntry)
  /-- `_refresh_watch_state_before_deletion`, for the rows of the server. -/
  | refresh (w : WatchSources)
  /-- `update_last_played_scrobble`. -/
  | scrobble (ratingKey lastPlayed : String)

/-- A server among others: the libraries, the library that is scanned, the identifiers of the items
of the server, with those of their seasons and series, and of the other servers. -/
structure Fleet where
  rt : Runtime
  libraries : List Library
  libraryId : String
  isPlex : Bool
  itemIds : Set String
  otherIds : Set String
  /-- The setting `discord_notif_thresholds`, in days. -/
  thresholds : List ℕ

namespace Fleet

variable (f : Fleet)

/-- The server of the library. -/
def serverId : String := libraryServer f.libraries f.libraryId

/-- `_update_delete_at_if_pending`: a new date resets the notifications of thresholds. -/
def updateDeleteAtIfPending (db : Database) (embyId : String) (grace : Option ℤ → ℤ)
    (lastPlayed : Option String) (playCount : ℤ) : Database :=
  match db.queue.rows.find? fun row => row.embyId = embyId && row.status = .pending with
  | none => db
  | some row =>
      match f.rt.parseIsoDt row.detectedAt with
      | none => db
      | some detected =>
          let newDeleteAt := detected + grace row.seerrUserId * 86400000000
          let changed :=
            match f.rt.parseIsoDt row.deleteAt with
            | none => true
            | some old => decide (3600000000 < |newDeleteAt - old|)
          { queue := db.queue.update (·.id = row.id)
              (fun row =>
                { row with
                  deleteAt := f.rt.isoformat newDeleteAt
                  lastPlayed := lastPlayed
                  viewCount := playCount })
              fun _ => ⟨rfl, rfl⟩
            notifications :=
              if changed then
                db.notifications.filter fun n => !(n.1 = row.id && n.2 ≠ "detected" && n.2 ≠ "now")
              else db.notifications }

/-- `_pre_mark_applicable_thresholds`, with the thresholds of the setting. -/
def preMarkApplicableThresholds (db : Database) (embyId deleteAt : String) : Database :=
  Hygie.preMarkApplicableThresholds f.rt f.thresholds db embyId deleteAt

/-- `mark_notified_detected`. -/
def markNotifiedDetected (db : Database) (embyId : String) : Database :=
  match db.queue.rows.find? fun row => row.embyId = embyId && row.status = .pending with
  | none => db
  | some row => { db with notifications := db.notifications.insert (row.id, "detected") }

/-- What a write does. -/
def apply (db : Database) : Writer → Database
  | .activityLog plays =>
      let writes := (plays.filter (·.2 ≠ "")).map fun play =>
        { played := play.2, viewCount := 1, embyId := play.1 : WatchWrite }
      { db with queue := writes.foldl QueueTable.writeWatchState db.queue }
  | .consolidatedWatch writes =>
      { db with queue := writes.foldl QueueTable.writeWatchState db.queue }
  | .alreadyQueued embyId grace lastPlayed playCount =>
      f.updateDeleteAtIfPending db embyId grace lastPlayed playCount
  | .insertEntry entry sent =>
      let db := { db with queue := db.queue.insertOrIgnore entry }
      let db := f.preMarkApplicableThresholds db entry.embyId entry.deleteAt
      if sent then markNotifiedDetected db entry.embyId else db
  | .insertPlexEntry entry => { db with queue := db.queue.insertOrIgnore entry }
  | .refresh w =>
      let rows := db.queue.rows.filter fun row =>
        isDue f.rt row && libraryServer f.libraries row.libraryId = f.serverId
      { db with
        queue :=
          (refreshServer f.rt w f.serverId rows).2.foldl QueueTable.writeWatchState db.queue }
  | .scrobble ratingKey lastPlayed =>
      { db with
        queue := db.queue.update (·.embyId = ratingKey)
          (fun row => { row with lastPlayed := some lastPlayed, status := .pending })
          fun _ => ⟨rfl, rfl⟩ }

/-! ### The law -/

/-- A row of a library of another server. -/
def Foreign (row : QueueRow) : Prop :=
  (∃ lib ∈ f.libraries, lib.id = row.libraryId) ∧
    libraryServer f.libraries row.libraryId ≠ f.serverId

/-- The writes that may come from the server: they name its items, and an Emby scan inserts no item
whose identifier is queued for another server. -/
def Enabled (db : Database) : Writer → Prop
  | .activityLog plays => f.isPlex = false ∧ ∀ play ∈ plays, play.1 ∈ f.itemIds
  | .consolidatedWatch writes => f.isPlex = false ∧ ∀ write ∈ writes, write.embyId ∈ f.itemIds
  | .alreadyQueued embyId .. => f.isPlex = false ∧ embyId ∈ f.itemIds
  | .insertEntry entry _ =>
      f.isPlex = false ∧ entry.embyId ∈ f.itemIds ∧ entry.libraryId = f.libraryId ∧
        ∀ row ∈ db.queue.rows, f.Foreign row → row.embyId ≠ entry.embyId
  | .insertPlexEntry entry =>
      f.isPlex = true ∧ entry.embyId ∈ f.itemIds ∧ entry.libraryId = f.libraryId
  | .refresh _ => True
  | .scrobble ratingKey _ => f.isPlex = true ∧ ratingKey ∈ f.itemIds

/-- What the other servers have is as it was: their rows, the notifications of these, and that their
items can be queued. -/
structure Isolated (db db' : Database) : Prop where
  rows : ∀ row, f.Foreign row → (row ∈ db'.queue.rows ↔ row ∈ db.queue.rows)
  notifications : ∀ row ∈ db.queue.rows, f.Foreign row → ∀ threshold,
    ((row.id, threshold) ∈ db'.notifications ↔ (row.id, threshold) ∈ db.notifications)
  queueable : ∀ id ∈ f.otherIds, id ∉ db.queue.rows.map (·.embyId) →
    id ∉ db'.queue.rows.map (·.embyId)

/-- The identifiers of the server are its own: a Plex server shares none with a row of another
server, an Emby server none with a pending one, and those it shares with items of other servers are
queued. -/
def Separate (db : Database) : Prop :=
  ∀ id ∈ f.itemIds,
    (∀ row ∈ db.queue.rows, f.Foreign row → row.embyId = id →
      f.isPlex = false ∧ row.status ≠ .pending) ∧
    (id ∈ f.otherIds → id ∈ db.queue.rows.map (·.embyId))

/-- The runs of writes for the server. -/
abbrev Runs (db : Database) (ws : List Writer) (db' : Database) : Prop :=
  GuardedRun (fun db w => some (f.apply db w)) f.Enabled db ws db'

variable {f : Fleet} {q : QueueTable} {db db' db'' : Database} {w : Writer} {ws : List Writer}
  {row : QueueRow}

/-! ### What a statement leaves alone -/

theorem foreign_congr {other : QueueRow} (h : other.libraryId = row.libraryId) :
    f.Foreign other ↔ f.Foreign row := by
  simp only [Foreign, h]

/-- An update that reaches no row of the other servers leaves their rows alone. -/
theorem mem_update_of_foreign {p : QueueRow → Bool} {set : QueueRow → QueueRow}
    {hkeys : KeepsKeys set} (hp : ∀ row ∈ q.rows, f.Foreign row → p row = false)
    (hset : ∀ row, (set row).libraryId = row.libraryId) (hrow : f.Foreign row) :
    row ∈ (q.update p set hkeys).rows ↔ row ∈ q.rows := by
  rw [QueueTable.mem_update]
  constructor
  · intro ⟨old, hold, heq⟩
    have hlibrary : old.libraryId = row.libraryId := by
      rw [← heq, QueueTable.setWhere]
      split_ifs
      · exact (hset old).symm
      · rfl
    have hmiss := hp old hold ((foreign_congr hlibrary).2 hrow)
    rw [QueueTable.setWhere, hmiss] at heq
    exact heq ▸ hold
  · intro hmem
    exact ⟨row, hmem, by rw [QueueTable.setWhere, hp row hmem hrow]; rfl⟩

/-- Writes of the watch state that reach no row of the other servers leave their rows alone. -/
theorem mem_foldl_of_foreign {writes : List WatchWrite}
    (hwrites : ∀ write ∈ writes, ∀ row ∈ q.rows, f.Foreign row → write.reaches row = false)
    (hrow : f.Foreign row) :
    row ∈ (writes.foldl QueueTable.writeWatchState q).rows ↔ row ∈ q.rows := by
  induction writes generalizing q with
  | nil => rfl
  | cons write writes ih =>
      have hone : ∀ row, f.Foreign row → (row ∈ (q.writeWatchState write).rows ↔ row ∈ q.rows) :=
        fun row hrow => mem_update_of_foreign (hwrites write (List.mem_cons_self ..))
          (fun _ => rfl) hrow
      rw [List.foldl_cons, ih, hone row hrow]
      intro write' hwrite' row' hrow' hforeign
      exact hwrites write' (List.mem_cons_of_mem _ hwrite') row'
        ((hone row' hforeign).1 hrow') hforeign

theorem map_embyId_foldl {writes : List WatchWrite} :
    (writes.foldl QueueTable.writeWatchState q).rows.map (·.embyId) = q.rows.map (·.embyId) := by
  induction writes generalizing q with
  | nil => rfl
  | cons write writes ih => exact ih.trans QueueTable.map_embyId_update

/-- A row is reached by the writes for its item only. -/
theorem reaches_eq_false {write : WatchWrite}
    (h : row.embyId = write.embyId → row.status ≠ .pending) :
    write.reaches row = false := by
  by_contra hreaches
  simp only [WatchWrite.reaches, Bool.not_eq_false, Bool.and_eq_true, decide_eq_true_eq] at hreaches
  exact h hreaches.1.1 hreaches.1.2

theorem isolated_refl : f.Isolated db db where
  rows _ _ := Iff.rfl
  notifications _ _ _ _ := Iff.rfl
  queueable _ _ h := h

theorem Isolated.trans (h : f.Isolated db db') (h' : f.Isolated db' db'') : f.Isolated db db'' where
  rows row hrow := (h'.rows row hrow).trans (h.rows row hrow)
  notifications row hmem hrow threshold :=
    (h'.notifications row ((h.rows row hrow).2 hmem) hrow threshold).trans
      (h.notifications row hmem hrow threshold)
  queueable id hid hfree := h'.queueable id hid (h.queueable id hid hfree)

/-- A change that keeps the rows of the other servers with their notifications, and the identifiers.
-/
theorem isolated_of_ids {ns : List (ℤ × String)}
    (hrows : ∀ row, f.Foreign row → (row ∈ q.rows ↔ row ∈ db.queue.rows))
    (hids : q.rows.map (·.embyId) = db.queue.rows.map (·.embyId))
    (hns : ∀ row ∈ db.queue.rows, f.Foreign row → ∀ threshold,
      ((row.id, threshold) ∈ ns ↔ (row.id, threshold) ∈ db.notifications)) :
    f.Isolated db { queue := q, notifications := ns } where
  rows := hrows
  notifications := hns
  queueable id _ hfree := by rwa [hids]

/-- A row of the other servers is not the one that is found by a predicate it fails. -/
theorem id_ne_of_find? {p : QueueRow → Bool} {found : QueueRow}
    (hfind : q.rows.find? p = some found)
    (hrow : row ∈ q.rows) (hp : p row = false) : row.id ≠ found.id := by
  intro hid
  obtain rfl := q.eq_of_id hrow (List.mem_of_find?_eq_some hfind) hid
  rw [List.find?_some hfind] at hp
  cases hp

/-! ### The statements of a server whose identifiers are separate -/

/-- Writes of the watch state of the items of an Emby server. -/
theorem isolated_writes (hsep : f.Separate db) {writes : List WatchWrite}
    (hwrites : ∀ write ∈ writes, write.embyId ∈ f.itemIds) :
    f.Isolated db { db with queue := writes.foldl QueueTable.writeWatchState db.queue } := by
  refine isolated_of_ids (fun row hrow => mem_foldl_of_foreign ?_ hrow) map_embyId_foldl
    fun _ _ _ _ => Iff.rfl
  intro write hwrite row hmem hforeign
  exact reaches_eq_false fun hid =>
    ((hsep _ (hwrites write hwrite)).1 row hmem hforeign hid).2

theorem isolated_updateDeleteAtIfPending (hsep : f.Separate db) {embyId : String}
    (hid : embyId ∈ f.itemIds) {grace : Option ℤ → ℤ} {lastPlayed : Option String} {playCount : ℤ} :
    f.Isolated db (f.updateDeleteAtIfPending db embyId grace lastPlayed playCount) := by
  simp only [updateDeleteAtIfPending]
  split
  · exact isolated_refl
  · next found hfound =>
      split
      · exact isolated_refl
      · -- the row that is found is none of the other servers
        have hother : ∀ row ∈ db.queue.rows, f.Foreign row → row.id ≠ found.id := by
          intro row hmem hforeign
          refine id_ne_of_find? hfound hmem (Bool.eq_false_iff.2 fun h => ?_)
          simp only [Bool.and_eq_true, decide_eq_true_eq] at h
          exact ((hsep embyId hid).1 row hmem hforeign h.1).2 h.2
        refine isolated_of_ids (fun row hrow => mem_update_of_foreign ?_ (fun _ => rfl) hrow)
          QueueTable.map_embyId_update fun row hmem hforeign threshold => ?_
        · exact fun row hmem hforeign => decide_eq_false (hother row hmem hforeign)
        · split_ifs
          · simp [hother row hmem hforeign]
          · rfl

/-- A notification of a row that is not of the other servers. -/
theorem isolated_insert {found : QueueRow} {threshold : String} (hfound : found ∈ db.queue.rows)
    (hown : ¬ f.Foreign found) :
    f.Isolated db { db with notifications := db.notifications.insert (found.id, threshold) } := by
  refine isolated_of_ids (fun _ _ => Iff.rfl) rfl fun row hmem hforeign other => ?_
  rw [List.mem_insert_iff, or_iff_right]
  intro heq
  obtain rfl := db.queue.eq_of_id hmem hfound (congrArg Prod.fst heq)
  exact hown hforeign

theorem isolated_preMark {embyId : String} (deleteAt : String)
    (hown : ∀ row ∈ db.queue.rows, row.embyId = embyId → ¬ f.Foreign row) :
    f.Isolated db (f.preMarkApplicableThresholds db embyId deleteAt) := by
  rw [preMarkApplicableThresholds]
  rcases preMark_cases with heq | ⟨found, hmem, hembyId, met, heq⟩
  · rw [heq]
    exact isolated_refl
  · rw [heq]
    refine isolated_of_ids (fun _ _ => Iff.rfl) rfl fun row hrow hforeign threshold => ?_
    refine mem_record.trans (or_iff_right fun hmark => ?_)
    obtain ⟨days, -, hmark⟩ := List.mem_map.1 hmark
    obtain rfl := db.queue.eq_of_id hmem hrow (congrArg Prod.fst hmark)
    exact hown found hmem hembyId hforeign

theorem isolated_markNotifiedDetected {embyId : String}
    (hown : ∀ row ∈ db.queue.rows, row.embyId = embyId → ¬ f.Foreign row) :
    f.Isolated db (markNotifiedDetected db embyId) := by
  simp only [markNotifiedDetected]
  split
  · exact isolated_refl
  · next found hfound =>
      have hfind := List.find?_some hfound
      simp only [Bool.and_eq_true, decide_eq_true_eq] at hfind
      have hmem := List.mem_of_find?_eq_some hfound
      exact isolated_insert hmem (hown found hmem hfind.1)

/-- An insertion into the library of the server, of an item that the other servers cannot queue. -/
theorem isolated_insertOrIgnore {entry : QueueEntry} (hlibrary : entry.libraryId = f.libraryId)
    (hother : entry.embyId ∈ f.otherIds → entry.embyId ∈ db.queue.rows.map (·.embyId)) :
    f.Isolated db { db with queue := db.queue.insertOrIgnore entry } where
  rows row hrow := by
    rw [QueueTable.mem_insertOrIgnore, or_iff_left]
    rintro ⟨_, rfl⟩
    exact hrow.2 (by rw [serverId, ← hlibrary]; rfl)
  notifications _ _ _ _ := Iff.rfl
  queueable id hid hfree hmem := by
    obtain ⟨row, hrow, rfl⟩ := List.mem_map.1 hmem
    rcases QueueTable.mem_insertOrIgnore.1 hrow with hrow | ⟨hnew, rfl⟩
    · exact hfree (List.mem_map_of_mem hrow)
    · exact hnew (hother hid)

/-- Rows of an item that are not of the other servers stay so. -/
theorem own_of_isolated {embyId : String} (h : f.Isolated db db')
    (hown : ∀ row ∈ db.queue.rows, row.embyId = embyId → ¬ f.Foreign row) :
    ∀ row ∈ db'.queue.rows, row.embyId = embyId → ¬ f.Foreign row :=
  fun row hmem hid hforeign => hown row ((h.rows row hforeign).1 hmem) hid hforeign

/-- The refresh before a deletion writes to the rows of the server only. -/
theorem isolated_refresh {w : WatchSources} : f.Isolated db (f.apply db (.refresh w)) := by
  refine isolated_of_ids (fun row hrow => mem_foldl_of_foreign ?_ hrow) map_embyId_foldl
    fun _ _ _ _ => Iff.rfl
  intro write hwrite row hmem hforeign
  obtain ⟨own, hown, hid, _⟩ := mem_refreshServer_writes hwrite
  obtain ⟨hownMem, hserver⟩ := List.mem_filter.1 hown
  simp only [Bool.and_eq_true, decide_eq_true_eq] at hserver
  refine reaches_eq_false fun heq => absurd hserver.2 ?_
  obtain rfl := db.queue.eq_of_embyId hmem hownMem (heq.trans hid)
  exact hforeign.2

/-- **One write leaves the other servers alone** when the identifiers are separate. -/
theorem isolated_apply (hsep : f.Separate db) (hok : f.Enabled db w) :
    f.Isolated db (f.apply db w) := by
  cases w with
  | activityLog plays =>
      refine isolated_writes hsep fun write hwrite => ?_
      obtain ⟨play, hplay, rfl⟩ := List.mem_map.1 hwrite
      exact hok.2 play (List.mem_of_mem_filter hplay)
  | consolidatedWatch writes => exact isolated_writes hsep hok.2
  | alreadyQueued embyId grace lastPlayed playCount =>
      exact isolated_updateDeleteAtIfPending hsep hok.2
  | insertEntry entry sent =>
      obtain ⟨_, hid, hlibrary, hfree⟩ := hok
      have hinsert : f.Isolated db { db with queue := db.queue.insertOrIgnore entry } :=
        isolated_insertOrIgnore hlibrary (hsep _ hid).2
      have hown := own_of_isolated hinsert fun row hmem heq hforeign => hfree row hmem hforeign heq
      have hmark := isolated_preMark entry.deleteAt hown
      simp only [apply]
      split_ifs
      · exact (hinsert.trans hmark).trans
          (isolated_markNotifiedDetected (own_of_isolated hmark hown))
      · exact hinsert.trans hmark
  | insertPlexEntry entry => exact isolated_insertOrIgnore hok.2.2 (hsep _ hok.2.1).2
  | refresh w => exact isolated_refresh
  | scrobble ratingKey lastPlayed =>
      refine isolated_of_ids (fun row hrow => mem_update_of_foreign ?_ (fun _ => rfl) hrow)
        QueueTable.map_embyId_update fun _ _ _ _ => Iff.rfl
      intro row hmem hforeign
      refine decide_eq_false fun hid => ?_
      have hemby := ((hsep _ hok.2).1 row hmem hforeign hid).1
      rw [hok.1] at hemby
      cases hemby

/-- The notifications of a new entry are no rows of the queue. -/
theorem queue_insertEntry {entry : QueueEntry} {sent : Bool} :
    (f.apply db (.insertEntry entry sent)).queue = db.queue.insertOrIgnore entry := by
  have hpre : ∀ db : Database,
      (f.preMarkApplicableThresholds db entry.embyId entry.deleteAt).queue = db.queue :=
    fun _ => queue_preMark
  have hmark : ∀ db : Database, (markNotifiedDetected db entry.embyId).queue = db.queue := by
    intro db
    simp only [markNotifiedDetected]
    split <;> rfl
  simp only [apply]
  split_ifs
  · rw [hmark, hpre]
  · rw [hpre]

/-- No write takes an identifier out of the queue. -/
theorem embyIds_apply {id : String} (h : id ∈ db.queue.rows.map (·.embyId)) :
    id ∈ (f.apply db w).queue.rows.map (·.embyId) := by
  have hinsert : ∀ entry, id ∈ (db.queue.insertOrIgnore entry).rows.map (·.embyId) := by
    intro entry
    obtain ⟨row, hrow, rfl⟩ := List.mem_map.1 h
    exact List.mem_map_of_mem (QueueTable.mem_insertOrIgnore.2 (.inl hrow))
  cases w with
  | activityLog plays => exact map_embyId_foldl.symm ▸ h
  | consolidatedWatch writes => exact map_embyId_foldl.symm ▸ h
  | alreadyQueued embyId grace lastPlayed playCount =>
      simp only [apply, updateDeleteAtIfPending]
      split
      · exact h
      · split
        · exact h
        · rw [QueueTable.map_embyId_update]
          exact h
  | insertEntry entry sent =>
      rw [queue_insertEntry]
      exact hinsert entry
  | insertPlexEntry entry => exact hinsert entry
  | refresh w => exact map_embyId_foldl.symm ▸ h
  | scrobble ratingKey lastPlayed =>
      simp only [apply]
      rw [QueueTable.map_embyId_update]
      exact h

/-- The identifiers stay separate. -/
theorem separate_apply (hsep : f.Separate db) (hok : f.Enabled db w) : f.Separate (f.apply db w) :=
  fun id hid =>
    ⟨fun row hmem hforeign heq =>
      (hsep id hid).1 row (((isolated_apply hsep hok).rows row hforeign).1 hmem) hforeign heq,
      fun hother => embyIds_apply ((hsep id hid).2 hother)⟩

/-- **Every run of writes leaves the other servers alone** when the identifiers are separate. -/
theorem isolated_of_run (hsep : f.Separate db) (hrun : f.Runs db ws db') : f.Isolated db db' := by
  have hinvariant : f.Isolated db db' ∧ f.Separate db' :=
    hrun.invariant (I := fun db' => f.Isolated db db' ∧ f.Separate db') ⟨isolated_refl, hsep⟩
      fun db' w db'' h hok hstep => by
        obtain rfl := Option.some.inj hstep
        exact ⟨h.1.trans (isolated_apply h.2 hok), separate_apply h.2 hok⟩
  exact hinvariant.1

/-! ### When the other servers are left alone -/

/-- A text is before its continuations. -/
theorem lt_append_zero (date : String) : date < date ++ "0" := by
  rw [String.lt_iff_toList_lt, String.toList_append]
  induction date.toList with
  | nil => exact List.nil_lt_cons _ _
  | cons c cs ih => exact List.cons_lt_cons_iff.2 (.inr ⟨rfl, ih⟩)

/-- A run of one write. -/
theorem runs_singleton (hok : f.Enabled db w) : f.Runs db [w] (f.apply db w) := .snoc .nil hok rfl

/-- A row that an update changes is not there any more. -/
theorem not_mem_update {p : QueueRow → Bool} {set : QueueRow → QueueRow} (hkeys : KeepsKeys set)
    (hrow : row ∈ q.rows) (hp : p row = true) (hset : set row ≠ row) :
    row ∉ (q.update p set hkeys).rows := by
  intro hmem
  obtain ⟨old, hold, heq⟩ := QueueTable.mem_update.1 hmem
  have hid : old.id = row.id := by rw [← heq, QueueTable.setWhere_id hkeys]
  obtain rfl := q.eq_of_id hold hrow hid
  rw [QueueTable.setWhere, hp, if_pos rfl] at heq
  exact hset heq

/-- **Exactly when every run of writes leaves the other servers alone**: the identifiers of the
server are its own. -/
theorem isolated_iff :
    (∀ ws db', f.Runs db ws db' → f.Isolated db db') ↔ f.Separate db := by
  refine ⟨fun h id hid => ?_, fun hsep ws db' hrun => isolated_of_run hsep hrun⟩
  have hrows : ∀ row ∈ db.queue.rows, f.Foreign row → row.embyId = id →
      f.isPlex = false ∧ row.status ≠ .pending := by
    intro row hmem hforeign heq
    -- a date that the row does not have, and after the one that it has
    let date := row.lastPlayed.getD "" ++ "0"
    have hnew : row.lastPlayed ≠ some date := by
      intro hlast
      have hlt := lt_append_zero (row.lastPlayed.getD "")
      rw [show row.lastPlayed.getD "" ++ "0" = date from rfl, hlast, Option.getD_some] at hlt
      exact hlt.false
    by_cases hplex : f.isPlex = true
    · -- a scrobble of the item
      have hisolated := h _ _ (runs_singleton (w := .scrobble id date) ⟨hplex, hid⟩)
      have hgone : row ∉ (db.queue.update (·.embyId = id)
          (fun row => { row with lastPlayed := some date, status := .pending })
          fun _ => ⟨rfl, rfl⟩).rows := by
        refine not_mem_update _ hmem (decide_eq_true heq) fun hset => hnew ?_
        exact (congrArg (·.lastPlayed) hset :).symm
      exact absurd ((hisolated.rows row hforeign).2 hmem) hgone
    · -- a stop of the item in the activity log
      refine ⟨by simpa using hplex, fun hpending => ?_⟩
      have hisolated := h _ _ (runs_singleton (w := .activityLog [(id, date)])
        ⟨by simpa using hplex, by simpa using hid⟩)
      have hdate : date ≠ "" := fun hempty => by
        have hzero := congrArg String.toList hempty
        simp [date] at hzero
      have hwrite : (f.apply db (.activityLog [(id, date)])).queue =
          db.queue.writeWatchState { played := date, viewCount := 1, embyId := id } := by
        simp [apply, hdate]
      have hreaches :
          WatchWrite.reaches { played := date, viewCount := 1, embyId := id } row = true := by
        rcases Option.eq_none_or_eq_some row.lastPlayed with hlast | ⟨last, hlast⟩
        · simp [WatchWrite.reaches, heq, hpending, hlast]
        · have hlt : last < date := by
            simpa only [date, hlast, Option.getD_some] using lt_append_zero last
          simp only [WatchWrite.reaches, heq, hpending, hlast, hlt, decide_true, Bool.and_self,
            Bool.or_true]
      have hgone : row ∉ (db.queue.writeWatchState
          { played := date, viewCount := 1, embyId := id }).rows := by
        refine not_mem_update _ hmem hreaches fun hset => hnew ?_
        exact (congrArg (·.lastPlayed) hset :).symm
      rw [← hwrite] at hgone
      exact absurd ((hisolated.rows row hforeign).2 hmem) hgone
  refine ⟨hrows, fun hother => ?_⟩
  by_contra hfree
  -- an entry for the item
  let entry : QueueEntry :=
    { embyId := id, title := "", mediaType := "", libraryId := f.libraryId, libraryName := ""
      filePath := "", detectedAt := "", deleteAt := "" }
  have hinserted : id ∈ (db.queue.insertOrIgnore entry).rows.map (·.embyId) :=
    List.mem_map.2 ⟨db.queue.newRow entry, QueueTable.mem_insertOrIgnore.2 (.inr ⟨hfree, rfl⟩), rfl⟩
  by_cases hplex : f.isPlex = true
  · have hisolated := h _ _ (runs_singleton (w := .insertPlexEntry entry) ⟨hplex, hid, rfl⟩)
    exact hisolated.queueable id hother hfree hinserted
  · have hisolated := h _ _ (runs_singleton (w := .insertEntry entry false)
      ⟨by simpa using hplex, hid, rfl,
      fun row hmem _ heq => hfree (List.mem_map.2 ⟨row, hmem, heq⟩)⟩)
    refine hisolated.queueable id hother hfree ?_
    rw [queue_insertEntry]
    exact hinserted

/-! ### A film of one server with the number of a film of another -/

/-- A film of the Emby server "0". -/
def filmRow : QueueRow where
  id := 1
  embyId := "42"
  title := "Heat"
  mediaType := "Movie"
  libraryId := "movies"
  libraryName := "Movies"
  filePath := "/movies/Heat (1995)/Heat.mkv"
  detectedAt := "2025-01-01T00:00:00+00:00"
  deleteAt := "2025-02-01T00:00:00+00:00"

/-- The queue with this row alone, and nothing notified. -/
def filmDatabase : Database where
  queue :=
    { rows := [filmRow]
      nextId := 2
      lt_nextId := by simp [filmRow]
      id_nodup := List.nodup_singleton _
      embyId_nodup := List.nodup_singleton _ }
  notifications := []

/-- The Plex server "1", which has an item with the same number. -/
def plexFleet : Fleet where
  rt := sampleRuntime
  libraries := [{ id := "movies", serverId := some "0" }, { id := "plex", serverId := some "1" }]
  libraryId := "plex"
  isPlex := true
  itemIds := {"42"}
  otherIds := {"42"}
  thresholds := [7, 1]

/-- A scrobble of the Plex item writes to the row of the Emby film. -/
theorem not_isolated_scrobble :
    ¬ ∀ (f : Fleet) db ws db', f.Runs db ws db' → f.Isolated db db' := by
  intro hclaim
  have hrun : plexFleet.Runs filmDatabase [.scrobble "42" "2025-02-10T20:00:00+00:00"]
      (plexFleet.apply filmDatabase (.scrobble "42" "2025-02-10T20:00:00+00:00")) :=
    runs_singleton ⟨rfl, rfl⟩
  have hforeign : plexFleet.Foreign filmRow :=
    ⟨⟨_, List.mem_cons_self .., rfl⟩, by decide⟩
  have hmem := ((hclaim _ _ _ _ hrun).rows filmRow hforeign).2 (List.mem_singleton_self _)
  exact absurd hmem (by decide)

end Fleet

end Hygie
