/-
**Ignoring a title, and putting it back on the queue.**

A row of the queue that is ignored moves to `ignored_media`, and from there it can be queued again.
That table has fewer columns, and both statements name the columns one by one.  What the deletion
of a title reads of its row is lost on the way where it is the series and the season in Sonarr, the
server that owns the title, or the key in Plex; and a title without a type comes back as a film.

Main definitions:

* `IgnoredTable`, `IgnoreStore` — the two tables;
* `IgnoreStore.ignoreOne`, `IgnoreStore.bulkIgnore`, `IgnoreStore.requeueIgnored` — the requests;
* `PipelineColumns` — what the deletion reads of a row;
* `IgnoreStore.Restored` — the law: what comes back is deleted in the same way.

Main results:

* `IgnoreStore.archived_bulkIgnore` — what an ignored row leaves, by itself or among others;
* `IgnoreStore.restored_iff` — **exactly which rows come back as they were**.
-/

import Hygie.ConsolidatedWatch
import Hygie.DeletionPipeline
import Hygie.PlexMirror
import Hygie.QueueTable

set_option relaxedAutoImplicit false
set_option autoImplicit false

namespace Hygie

/-! ### The tables -/

/-- A stored row of `ignored_media`. -/
structure IgnoredMedia extends IgnoredRow where
  id : ℤ
  title : String
  libraryName : String := ""
  filePath : String := ""
  posterUrl : String := ""
  seerrId : Option ℤ := none
  seerrUserId : Option ℤ := none
  seerrUsername : String := ""
  seerrRequestUrl : String := ""
  radarrId : Option ℤ := none
  sonarrId : Option ℤ := none
  addedDate : Option String := none
  lastPlayed : Option String := none
  reason : String := ""
  ignoredAt : String
  expireAt : Option String := none
  deriving DecidableEq, Repr

/-- The rows of `ignored_media`, and the next value of its key. -/
structure IgnoredTable where
  rows : List IgnoredMedia
  nextId : ℤ
  id_nodup : (rows.map (·.id)).Nodup
  embyId_nodup : (rows.map (·.embyId)).Nodup
  lt_nextId : ∀ row ∈ rows, row.id < nextId

namespace IgnoredTable

theorem eq_of_embyId {t : IgnoredTable} {a b : IgnoredMedia} (ha : a ∈ t.rows) (hb : b ∈ t.rows)
    (hid : a.embyId = b.embyId) : a = b := List.inj_on_of_nodup_map t.embyId_nodup ha hb hid

/-- A `DELETE` of a row. -/
def delete (t : IgnoredTable) (id : ℤ) : IgnoredTable where
  rows := t.rows.filter (·.id ≠ id)
  nextId := t.nextId
  id_nodup := t.id_nodup.sublist (List.filter_sublist.map _)
  embyId_nodup := t.embyId_nodup.sublist (List.filter_sublist.map _)
  lt_nextId row hrow := t.lt_nextId row (List.mem_of_mem_filter hrow)

/-- `INSERT OR REPLACE`: the row with the same `emby_id` goes. -/
def replace (t : IgnoredTable) (row : IgnoredMedia) : IgnoredTable where
  rows := t.rows.filter (·.embyId ≠ row.embyId) ++ [{ row with id := t.nextId }]
  nextId := t.nextId + 1
  id_nodup := by
    rw [List.map_append, List.nodup_append_comm]
    refine List.nodup_cons.2 ⟨fun hmem => ?_, t.id_nodup.sublist (List.filter_sublist.map _)⟩
    obtain ⟨old, hold, hid⟩ := List.mem_map.1 hmem
    exact (t.lt_nextId old (List.mem_of_mem_filter hold)).ne hid
  embyId_nodup := by
    rw [List.map_append, List.nodup_append_comm]
    refine List.nodup_cons.2 ⟨fun hmem => ?_, t.embyId_nodup.sublist (List.filter_sublist.map _)⟩
    obtain ⟨old, hold, hid⟩ := List.mem_map.1 hmem
    exact of_decide_eq_true (List.mem_filter.1 hold).2 hid
  lt_nextId := by
    intro row' hrow'
    rcases List.mem_append.1 hrow' with hold | hnew
    · exact (t.lt_nextId row' (List.mem_of_mem_filter hold)).trans (Int.lt_succ _)
    · rw [List.mem_singleton.1 hnew]
      exact Int.lt_succ _

end IgnoredTable

/-- The queue, the ignored titles, and the grace periods of the libraries. -/
structure IgnoreStore where
  queue : QueueTable
  ignored : IgnoredTable
  graceDays : List (String × ℤ)

/-! ### The requests -/

/-- What an ignored title is kept with: a reason, the moment, and when it is forgotten. -/
structure IgnoreNote where
  reason : String := ""
  ignoredAt : String
  expireAt : Option String := none

/-- A text, or another one in its place where it is empty. -/
def orElseText (s other : String) : String := if s = "" then other else s

/-- `_upsert_ignored_params`, with the key that the table gives. -/
def upsertIgnoredParams (row : QueueRow) (note : IgnoreNote) (id : ℤ) : IgnoredMedia where
  id := id
  embyId := row.embyId
  title := row.title
  mediaType := orElseText row.mediaType "Movie"
  libraryId := row.libraryId
  libraryName := row.libraryName
  filePath := row.filePath
  posterUrl := row.posterUrl
  tmdbId := row.tmdbId
  seerrId := row.seerrId
  seerrUserId := row.seerrUserId
  seerrUsername := row.seerrUsername
  seerrRequestUrl := row.seerrRequestUrl
  radarrId := row.radarrId
  sonarrId := row.sonarrId
  addedDate := row.addedDate
  lastPlayed := row.lastPlayed
  reason := note.reason
  ignoredAt := note.ignoredAt
  expireAt := note.expireAt

/-- The grace period of `requeue_ignored`. -/
def requeueGrace (graceDays : List (String × ℤ)) (libraryId : String) : ℤ :=
  if libraryId = "" then 7
  else ((graceDays.find? (·.1 = libraryId)).map (·.2)).getD 7

/-- The entry that `requeue_ignored` inserts. -/
def requeuedEntry (rt : Runtime) (item : IgnoredMedia) (graceDays : ℤ) : QueueEntry where
  embyId := item.embyId
  title := item.title
  mediaType := orElseText item.mediaType "Movie"
  libraryId := item.libraryId
  libraryName := item.libraryName
  filePath := item.filePath
  posterUrl := item.posterUrl
  tmdbId := item.tmdbId
  seerrId := item.seerrId
  seerrUserId := item.seerrUserId
  seerrUsername := item.seerrUsername
  seerrRequestUrl := item.seerrRequestUrl
  radarrId := item.radarrId
  sonarrId := item.sonarrId
  sonarrSeriesId := none
  seasonNumber := none
  addedDate := item.addedDate
  lastPlayed := item.lastPlayed
  detectedAt := rt.isoformat rt.now
  deleteAt := rt.isoformat (rt.now + graceDays * 86400000000)

/-- What `requeue_ignored` answers. -/
inductive RequeueResult
  | notFound
  | alreadyInQueue (s : IgnoreStore)
  | requeued (s : IgnoreStore) (deleteAt : String)

namespace IgnoreStore

variable (s : IgnoreStore) (rt : Runtime)

/-- What is done with a row that is ignored. -/
def ignoreRow (note : IgnoreNote) (s : IgnoreStore) (row : QueueRow) : IgnoreStore :=
  { s with
    queue := s.queue.delete (·.id = row.id)
    ignored := s.ignored.replace (upsertIgnoredParams row note s.ignored.nextId) }

/-- `ignore_one`; nothing where there is no such row. -/
def ignoreOne (mediaId : ℤ) (note : IgnoreNote) : Option IgnoreStore :=
  (s.queue.rows.find? (·.id = mediaId)).map (ignoreRow note s)

/-- `bulk`, with the action `ignore`. -/
def bulkIgnore (ids : List ℤ) (note : IgnoreNote) : IgnoreStore :=
  (s.queue.rows.filter (·.id ∈ ids)).foldl (ignoreRow note) s

/-- `requeue_ignored`. -/
def requeueIgnored (ignoredId : ℤ) : RequeueResult :=
  match s.ignored.rows.find? (·.id = ignoredId) with
  | none => .notFound
  | some item =>
      let entry := requeuedEntry rt item (requeueGrace s.graceDays item.libraryId)
      if h : entry.embyId ∈ s.queue.rows.map (·.embyId) then
        .alreadyInQueue { s with ignored := s.ignored.delete ignoredId }
      else
        .requeued
          { s with queue := s.queue.insert entry h, ignored := s.ignored.delete ignoredId }
          entry.deleteAt

end IgnoreStore

/-! ### What is asked -/

/-- What the deletion of a title reads of its row. -/
structure PipelineColumns where
  embyId : String
  mediaType : String
  libraryId : String
  filePath : String
  seerrId : Option ℤ
  radarrId : Option ℤ
  sonarrId : Option ℤ
  sonarrSeriesId : Option ℤ
  seasonNumber : Option ℤ
  arrServerUrl : Option String
  plexRatingKey : String
  deriving DecidableEq, Repr

/-- The columns of a row. -/
def QueueRow.pipelineColumns (row : QueueRow) : PipelineColumns where
  embyId := row.embyId
  mediaType := row.mediaType
  libraryId := row.libraryId
  filePath := row.filePath
  seerrId := row.seerrId
  radarrId := row.radarrId
  sonarrId := row.sonarrId
  sonarrSeriesId := row.sonarrSeriesId
  seasonNumber := row.seasonNumber
  arrServerUrl := row.arrServerUrl
  plexRatingKey := row.plexRatingKey

/-- **The columns decide**: rows with the same ones are removed from Radarr or Sonarr and from the
media server in the same way, and have the same torrents looked up. -/
theorem deletes_alike {row row' : QueueRow} (h : row.pipelineColumns = row'.pipelineColumns)
    (cfg : Config) :
    deleteFromArr cfg row.toQueueEntry = deleteFromArr cfg row'.toQueueEntry ∧
      findTorrentHash cfg row.toQueueEntry = findTorrentHash cfg row'.toQueueEntry ∧
      findTorrentHashesConsolidated cfg row.toQueueEntry =
        findTorrentHashesConsolidated cfg row'.toQueueEntry ∧
      ∀ server serverId,
        deleteServerItem cfg server row serverId = deleteServerItem cfg server row' serverId := by
  simp only [QueueRow.pipelineColumns, PipelineColumns.mk.injEq] at h
  obtain ⟨hembyId, htype, -, hpath, -, hradarr, hsonarr, hseries, hseason, hserver, hkey⟩ := h
  refine ⟨?_, ?_, ?_, fun server serverId => ?_⟩
  · simp only [deleteFromArr, isConsolidatedRow, htype, hpath, hradarr, hsonarr, hseries, hseason,
      hserver]
    rfl
  · simp only [findTorrentHash, episodeFileOf, torrentOfFile, htype, hpath, hradarr, hsonarr]
  · simp only [findTorrentHashesConsolidated, isConsolidatedRow, hsonarr, hseries, hseason]
    rfl
  · simp only [deleteServerItem, getServerItemId, hembyId, hkey]

/-- The columns of a row that is queued again. -/
def PipelineColumns.requeued (c : PipelineColumns) : PipelineColumns :=
  { c with
    mediaType := orElseText c.mediaType "Movie"
    sonarrSeriesId := none
    seasonNumber := none
    arrServerUrl := none
    plexRatingKey := "" }

namespace IgnoreStore

/-- The ignored title of a row is queued again, and the new row is deleted in the same way. -/
def ComesBack (rt : Runtime) (row : QueueRow) (s : IgnoreStore) : Prop :=
  ∃ item ∈ s.ignored.rows, item.embyId = row.embyId ∧ ∃ s' deleteAt,
    s.requeueIgnored rt item.id = .requeued s' deleteAt ∧
      ∃ row' ∈ s'.queue.rows, row'.status = .pending ∧ row'.pipelineColumns = row.pipelineColumns

/-- **The law**: a row that is ignored, by itself or among others, comes back as it was. -/
def Restored (s : IgnoreStore) (rt : Runtime) (row : QueueRow) : Prop :=
  ∀ note, (∃ s', s.ignoreOne row.id note = some s' ∧ s'.ComesBack rt row) ∧
    ∀ ids, row.id ∈ ids → (s.bulkIgnore ids note).ComesBack rt row

/-- A row that has a type, and nothing that gets lost. -/
structure Keepable (row : QueueRow) : Prop where
  mediaType : row.mediaType ≠ ""
  sonarrSeriesId : row.sonarrSeriesId = none
  seasonNumber : row.seasonNumber = none
  arrServerUrl : row.arrServerUrl = none
  plexRatingKey : row.plexRatingKey = ""

/-! ### What an ignored row leaves -/

variable {s : IgnoreStore} {rt : Runtime} {row other : QueueRow} {note : IgnoreNote}
  {rows : List QueueRow}

/-- A row has moved to the ignored titles. -/
structure Archived (note : IgnoreNote) (row : QueueRow) (s : IgnoreStore) : Prop where
  kept : ∃ id, upsertIgnoredParams row note id ∈ s.ignored.rows
  gone : row.embyId ∉ s.queue.rows.map (·.embyId)

theorem archived_ignoreRow (hrow : row ∈ s.queue.rows) :
    Archived note row (ignoreRow note s row) where
  kept := ⟨_, List.mem_append_right _ (List.mem_singleton_self _)⟩
  gone := by
    intro hmem
    obtain ⟨old, hold, hid⟩ := List.mem_map.1 hmem
    obtain ⟨hold, hne⟩ := QueueTable.mem_delete.1 hold
    obtain rfl := s.queue.eq_of_embyId hold hrow hid
    exact of_decide_eq_false hne rfl

/-- Another row that is ignored leaves it there. -/
theorem Archived.ignoreRow (h : Archived note row s) (hother : other.embyId ≠ row.embyId) :
    Archived note row (ignoreRow note s other) where
  kept := by
    obtain ⟨id, hid⟩ := h.kept
    refine ⟨id, List.mem_append_left _ (List.mem_filter.2 ⟨hid, decide_eq_true ?_⟩)⟩
    exact fun heq => hother heq.symm
  gone := by
    intro hmem
    obtain ⟨old, hold, hid⟩ := List.mem_map.1 hmem
    exact h.gone (List.mem_map.2 ⟨old, (QueueTable.mem_delete.1 hold).1, hid⟩)

/-- What several rows leave that are ignored together. -/
theorem archived_foldl (hnodup : (rows.map (·.embyId)).Nodup) (hsub : rows ⊆ s.queue.rows)
    (hrow : row ∈ rows) : Archived note row (rows.foldl (IgnoreStore.ignoreRow note) s) := by
  have hafter : ∀ (rows : List QueueRow) (s : IgnoreStore), Archived note row s →
      (∀ other ∈ rows, other.embyId ≠ row.embyId) →
        Archived note row (rows.foldl (IgnoreStore.ignoreRow note) s) := by
    intro rows
    induction rows with
    | nil => exact fun _ h _ => h
    | cons other rows ih =>
        intro s h hothers
        obtain ⟨hfirst, hrest⟩ := List.forall_mem_cons.1 hothers
        exact ih _ (h.ignoreRow hfirst) hrest
  induction rows generalizing s with
  | nil => cases hrow
  | cons first rows ih =>
      obtain ⟨hfirst, hrest⟩ := List.nodup_cons.1 hnodup
      rcases List.mem_cons.1 hrow with rfl | hlater
      · refine hafter rows _
          (archived_ignoreRow (hsub (List.mem_cons_self ..))) fun other hmem heq => ?_
        exact hfirst (List.mem_map.2 ⟨other, hmem, heq⟩)
      · refine ih hrest (fun other hmem => ?_) hlater
        refine QueueTable.mem_delete.2 ⟨hsub (List.mem_cons_of_mem _ hmem), decide_eq_false ?_⟩
        intro hid
        obtain rfl := s.queue.eq_of_id (hsub (List.mem_cons_of_mem _ hmem))
          (hsub (List.mem_cons_self ..)) hid
        exact hfirst (List.mem_map_of_mem hmem)

theorem archived_ignoreOne (hrow : row ∈ s.queue.rows) :
    ∃ s', s.ignoreOne row.id note = some s' ∧ Archived note row s' := by
  obtain ⟨found, hfound⟩ : ∃ found, s.queue.rows.find? (·.id = row.id) = some found :=
    Option.isSome_iff_exists.1 (List.find?_isSome.2 ⟨row, hrow, decide_eq_true rfl⟩)
  have hid : found.id = row.id := by simpa using List.find?_some hfound
  obtain rfl := s.queue.eq_of_id (List.mem_of_find?_eq_some hfound) hrow hid
  exact ⟨_, Option.map_eq_some_iff.2 ⟨found, hfound, rfl⟩, archived_ignoreRow hrow⟩

/-- **What a row leaves that is ignored among others.** -/
theorem archived_bulkIgnore {ids : List ℤ} (hrow : row ∈ s.queue.rows) (hid : row.id ∈ ids) :
    Archived note row (s.bulkIgnore ids note) :=
  archived_foldl (s.queue.embyId_nodup.sublist (List.filter_sublist.map _))
    List.filter_sublist.subset (List.mem_filter.2 ⟨hrow, decide_eq_true hid⟩)

/-! ### What comes back -/

/-- The request to queue an archived row again. -/
theorem Archived.requeueIgnored (h : Archived note row s) {item : IgnoredMedia}
    (hitem : item ∈ s.ignored.rows) (hid : item.embyId = row.embyId) :
    (∃ id, item = upsertIgnoredParams row note id) ∧
      ∃ s' deleteAt, s.requeueIgnored rt item.id = .requeued s' deleteAt ∧
        s'.queue.rows = s.queue.rows ++ [s.queue.newRow
          (requeuedEntry rt item (requeueGrace s.graceDays item.libraryId))] := by
  obtain ⟨id, hkept⟩ := h.kept
  have hfind : s.ignored.rows.find? (·.id = item.id) = some item := by
    obtain ⟨found, hfound⟩ : ∃ found, s.ignored.rows.find? (·.id = item.id) = some found :=
      Option.isSome_iff_exists.1 (List.find?_isSome.2 ⟨item, hitem, decide_eq_true rfl⟩)
    have hfoundId : found.id = item.id := by simpa using List.find?_some hfound
    rw [hfound, List.inj_on_of_nodup_map s.ignored.id_nodup (List.mem_of_find?_eq_some hfound) hitem
      hfoundId]
  have hgone : (requeuedEntry rt item (requeueGrace s.graceDays item.libraryId)).embyId ∉
      s.queue.rows.map (·.embyId) := by
    rw [requeuedEntry, hid]
    exact h.gone
  have hrequeue : s.requeueIgnored rt item.id = .requeued
      { s with
        queue := s.queue.insert
          (requeuedEntry rt item (requeueGrace s.graceDays item.libraryId)) hgone
        ignored := s.ignored.delete item.id }
      (requeuedEntry rt item (requeueGrace s.graceDays item.libraryId)).deleteAt := by
    simp only [IgnoreStore.requeueIgnored, hfind]
    exact dif_neg hgone
  exact ⟨⟨id, (s.ignored.eq_of_embyId hkept hitem hid.symm).symm⟩, _, _, hrequeue, rfl⟩

/-- What the deletion reads of a row that has come back. -/
theorem pipelineColumns_requeued {id g : ℤ} {q : QueueTable} :
    (q.newRow (requeuedEntry rt (upsertIgnoredParams row note id) g)).pipelineColumns =
      row.pipelineColumns.requeued := by
  have htwice : orElseText (orElseText row.mediaType "Movie") "Movie" =
      orElseText row.mediaType "Movie" := by
    unfold orElseText
    split_ifs <;> rfl
  simp only [QueueRow.pipelineColumns, QueueTable.newRow, requeuedEntry,
    upsertIgnoredParams, htwice,
    PipelineColumns.requeued]

theorem keepable_iff : Keepable row ↔ row.pipelineColumns.requeued = row.pipelineColumns := by
  have htype : orElseText row.mediaType "Movie" = row.mediaType ↔ row.mediaType ≠ "" := by
    unfold orElseText
    split_ifs with hempty
    · rw [hempty]
      decide
    · exact iff_of_true rfl hempty
  simp only [QueueRow.pipelineColumns, PipelineColumns.requeued, PipelineColumns.mk.injEq, htype,
    true_and]
  constructor
  · rintro ⟨hmedia, hseries, hseason, hserver, hkey⟩
    exact ⟨hmedia, hseries.symm, hseason.symm, hserver.symm, hkey.symm⟩
  · rintro ⟨hmedia, hseries, hseason, hserver, hkey⟩
    exact ⟨hmedia, hseries.symm, hseason.symm, hserver.symm, hkey.symm⟩

/-- A row that has been ignored comes back as it was if nothing of it gets lost. -/
theorem Archived.comesBack_iff (h : Archived note row s) : s.ComesBack rt row ↔ Keepable row := by
  rw [keepable_iff]
  constructor
  · rintro ⟨item, hitem, hid, s', deleteAt, hrequeue, row', hrow', hpending, hcolumns⟩
    obtain ⟨⟨id, rfl⟩, s'', deleteAt', hrequeue', hrows⟩ := h.requeueIgnored hitem hid
    obtain ⟨rfl, -⟩ := RequeueResult.requeued.inj (hrequeue.symm.trans hrequeue')
    rw [hrows] at hrow'
    rcases List.mem_append.1 hrow' with hold | hnew
    · have hembyId : row'.embyId = row.embyId := congrArg PipelineColumns.embyId hcolumns
      exact absurd (List.mem_map.2 ⟨row', hold, hembyId⟩) h.gone
    · rw [List.mem_singleton.1 hnew, pipelineColumns_requeued] at hcolumns
      exact hcolumns
  · intro hkeep
    obtain ⟨id, hkept⟩ := h.kept
    obtain ⟨-, s', deleteAt, hrequeue, hrows⟩ :=
      @Archived.requeueIgnored s rt row note h _ hkept rfl
    have hnew := List.mem_append_right s.queue.rows (List.mem_singleton_self
      (s.queue.newRow (requeuedEntry rt (upsertIgnoredParams row note id)
        (requeueGrace s.graceDays row.libraryId))))
    exact ⟨_, hkept, rfl, s', deleteAt, hrequeue, _, hrows ▸ hnew, rfl,
      pipelineColumns_requeued.trans hkeep⟩

/-- **Exactly which rows come back as they were**: those with a type, and without a series, a
season, a server in Radarr or Sonarr and a key in Plex. -/
theorem restored_iff (hrow : row ∈ s.queue.rows) : s.Restored rt row ↔ Keepable row := by
  constructor
  · intro h
    obtain ⟨-, hbulk⟩ := h { ignoredAt := "" }
    exact (archived_bulkIgnore hrow (List.mem_singleton_self row.id)).comesBack_iff.1
      (hbulk [row.id] (List.mem_singleton_self row.id))
  · intro h note
    obtain ⟨s', hone, harchived⟩ := @archived_ignoreOne s row note hrow
    exact ⟨⟨s', hone, harchived.comesBack_iff.2 h⟩, fun ids hid =>
      (archived_bulkIgnore hrow hid).comesBack_iff.2 h⟩

/-- A store with one queued row. -/
def single (row : QueueRow) : IgnoreStore where
  queue := .single row
  ignored :=
    { rows := []
      nextId := 1
      id_nodup := List.nodup_nil
      embyId_nodup := List.nodup_nil
      lt_nextId := List.forall_mem_nil _ }
  graceDays := [("films", 14)]

/-- A film comes back as it was. -/
theorem restored_iff_film :
    (single { seriesRow with mediaType := "Movie", sonarrSeriesId := none }).Restored {}
      { seriesRow with mediaType := "Movie", sonarrSeriesId := none } :=
  (restored_iff (List.mem_singleton_self _)).2 ⟨by decide, rfl, rfl, rfl, rfl⟩

/-- A series that has been consolidated loses its identifier in Sonarr. -/
theorem not_restored_series : ¬ (single seriesRow).Restored {} seriesRow := by
  intro h
  obtain ⟨-, hbulk⟩ := h { ignoredAt := "" }
  have harchived := @archived_bulkIgnore (single seriesRow) seriesRow { ignoredAt := "" }
    [seriesRow.id] (List.mem_singleton_self _) (List.mem_singleton_self _)
  have hkeep := harchived.comesBack_iff.1 (hbulk [seriesRow.id] (List.mem_singleton_self _))
  exact Option.some_ne_none _ hkeep.sonarrSeriesId

end IgnoreStore

end Hygie
