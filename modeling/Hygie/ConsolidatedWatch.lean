/-
**The watch guard of consolidated rows.**

A row that stands for a season or a series should be deleted only if none of its episodes was played
since it was put on the queue, and only if that is known.  What the guard knows is the last play
that is stored in the row and the largest text among the stops of the episodes that the lookups
reach; when a lookup comes back with nothing, the row goes on as if nothing had been played.  And
the first Sonarr server that knows the identifier of the series answers, not the one that the row
names, so that the lookups may reach the episodes of another series.

Main definitions:

* `IsSelected`, `IsLeftPending` — what becomes of a due row;
* `IsGroupItem` — the library item of the season or the series that a row stands for;
* `Identified`, `GroupWatchedSince` — the lookups reach that item, and an episode was played;
* `GuardsGroup` — the law for a consolidated row.

Main results:

* `isSelected_iff` — when a row is selected;
* `guardsGroup_iff` — **exactly when the guard holds**.
-/

import Hygie.ConsolidatedMedia
import Hygie.WatchGuard

set_option relaxedAutoImplicit false
set_option autoImplicit false

namespace Hygie

open PyText

section Guard

variable (rt : Runtime) (arr : String → ArrLibrary) (media : String → MediaLibrary)
  (w : WatchSources) (libraries : List Library) (q : QueueTable) (row : QueueRow)

/-! ### The law -/

/-- The row is handed to the batch. -/
def IsSelected : Prop := ∃ item ∈ (selectItemsToDelete rt w libraries q).1, item.id = row.id

/-- The row waits for the next run. -/
def IsLeftPending : Prop :=
  ∃ left ∈ (selectItemsToDelete rt w libraries q).2.rows, left.id = row.id ∧ left.status = .pending

/-- The date is that of an instant after the row was put on the queue. -/
def IsSince (date : String) : Prop :=
  ∃ detected played, rt.parseIsoDt row.detectedAt = some detected ∧
    rt.parseIsoDt date = some played ∧ detected < played

/-- The series that a row may stand for: that of the Sonarr server it names or, if it names none,
that of any server. -/
def MayStandFor (cfg : Config) (row : QueueEntry) (series : SonarrSeries) : Prop :=
  ownSeries cfg arr row = some series ∨
    truthyText row.arrServerUrl = none ∧ ∃ srv ∈ getSonarrServers cfg,
      (arr (sonarrCreds cfg srv.base srv.apiKey).1).series.find?
        (·.id = row.sonarrSeriesId.getD 0) = some series

/-- The library item of the season or the series that a row stands for. -/
def IsGroupItem (cfg : Config) (row : QueueEntry) (m : MediaItem) : Prop :=
  ∃ series, MayStandFor arr cfg row series ∧
    match row.seasonNumber with
    | none => m.type = .series ∧ rstripSlash m.path = rstripSlash series.path
    | some n => m.type = .season ∧ rstripSlash m.seriesPath = rstripSlash series.path ∧
        m.seasonNumber = some n

/-- The lookups come back with a library item, and its episodes can be listed. -/
def Found (serverId : String) (item : EmbyItem) : Prop :=
  groupItem w row serverId = some item ∧ (w.server serverId).listDown item.id = false

/-- **The lookups succeed**: they come back with the item of the group, and list its episodes. -/
def Identified (serverId : String) (m : MediaItem) : Prop :=
  m ∈ (media (getClient w.cfg serverId).1).items ∧ IsGroupItem arr w.cfg row.toQueueEntry m ∧
    Found w row serverId m.listed

/-- An episode of the group was stopped after the row was put on the queue. -/
def GroupWatchedSince (serverId : String) : Prop :=
  ∃ m ∈ (media (getClient w.cfg serverId).1).items, IsGroupItem arr w.cfg row.toQueueEntry m ∧
    ∃ episode ∈ (w.server serverId).episodes m.id, ∃ entry ∈ (w.server serverId).log,
      entry.type = "playback.stop" ∧ entry.itemId = episode ∧ IsSince rt row entry.date

/-- **The law**: a selected row was not watched, which the lookups could tell, and a row whose
lookups do not succeed is left pending. -/
def GuardsGroup : Prop :=
  let serverId := libraryServer libraries row.libraryId
  (IsSelected rt w libraries q row →
    (∃ m, Identified arr media w row serverId m) ∧
      ¬ GroupWatchedSince rt arr media w row serverId) ∧
  ((∀ m, ¬ Identified arr media w row serverId m) →
    ¬ IsSelected rt w libraries q row ∧ IsLeftPending rt w libraries q row)

/-- The last play stored in the row is after it was put on the queue. -/
def StoredSince : Prop := ∃ date, row.lastPlayed = some date ∧ IsSince rt row date

/-- The largest text among the dates of the recent stops of the first five hundred episodes is that
of an instant after the row was put on the queue. -/
def LatestSince (serverId : String) (item : EmbyItem) : Prop :=
  ∃ date, IsSince rt row date ∧
    IsGreatest
      {d | ∃ episode ∈ ((w.server serverId).episodes item.id).take 500,
        ∃ entry ∈ (w.server serverId).log, (w.server serverId).recent entry = true ∧
          entry.isStop = true ∧ entry.itemId = episode ∧ entry.date = d} date

end Guard

variable {rt : Runtime} {arr : String → ArrLibrary} {media : String → MediaLibrary}
  {w : WatchSources} {libraries : List Library} {q : QueueTable}
  {row row' : QueueRow} {serverId : String} {item : EmbyItem}

/-! ### What becomes of a row -/

theorem isWatchedSince_iff : isWatchedSince rt row = true ↔ StoredSince rt row := by
  simp only [isWatchedSince, StoredSince, IsSince]
  cases hdetected : rt.parseIsoDt row.detectedAt with
  | none => simp
  | some detected =>
      cases hplayed : row.lastPlayed.bind rt.parseIsoDt with
      | none =>
          simp only [Bool.false_eq_true, false_iff]
          intro ⟨date, hdate, _, played, _, hparse, _⟩
          rw [hdate, Option.bind_some, hparse] at hplayed
          cases hplayed
      | some played =>
          obtain ⟨date, hdate, hparse⟩ := Option.bind_eq_some_iff.1 hplayed
          simp [hdate, hparse]

/-- **A play moves the last play of a row forward**, so that the row was played since if it was
before or the play says so. -/
theorem storedSince_advanceLastPlayed {played : String} :
    StoredSince rt (advanceLastPlayed rt row played) ↔
      StoredSince rt row ∨ IsSince rt row played := by
  have hnew : StoredSince rt { row with lastPlayed := some played } ↔ IsSince rt row played := by
    simp [StoredSince, IsSince]
  simp only [advanceLastPlayed]
  cases hfresh : rt.parseIsoDt played with
  | none => simp [IsSince, hfresh]
  | some fresh =>
      cases hcurrent : row.lastPlayed.bind rt.parseIsoDt with
      | none =>
          have hno : ¬ StoredSince rt row := by
            intro hstored
            obtain ⟨date, hdate, _, _, _, hparse, _⟩ := hstored
            simp [hdate, hparse] at hcurrent
          simp only [hnew, hno, false_or]
      | some current =>
          obtain ⟨date, hdate, hparse⟩ := Option.bind_eq_some_iff.1 hcurrent
          have hstored : StoredSince rt row ↔ IsSince rt row date := by
            simp [StoredSince, hdate]
          simp only
          split_ifs with hlater
          · rw [hnew, hstored]
            refine ⟨.inr, fun h => h.elim (fun hold => ?_) id⟩
            -- the stored play is before the fresh one
            obtain ⟨detected, played', hdetected, hplayed', hlt⟩ := hold
            obtain rfl := Option.some.inj (hparse.symm.trans hplayed')
            exact ⟨detected, fresh, hdetected, hfresh, hlt.trans hlater⟩
          · rw [hstored]
            refine ⟨.inl, fun h => h.elim id fun hplay => ?_⟩
            -- the stored play is not before the fresh one
            obtain ⟨detected, fresh', hdetected, hfresh', hlt⟩ := hplay
            obtain rfl := Option.some.inj (hfresh.symm.trans hfresh')
            exact ⟨detected, current, hdetected, hparse, hlt.trans_le (not_lt.1 hlater)⟩

/-- **A row is selected** if it is due, is not postponed and was not played since. -/
theorem isSelected_iff (hrow : row ∈ q.rows) :
    IsSelected rt w libraries q row ↔
      isDue rt row = true ∧
        ∃ row', refreshed rt w libraries row = some row' ∧ ¬ StoredSince rt row' := by
  have hid : ∀ {old new : QueueRow}, refreshed rt w libraries old = some new → new.id = old.id :=
    fun h => by rw [← refreshed_eq h]
  simp only [IsSelected, mem_selectItemsToDelete, ← isWatchedSince_iff, Bool.not_eq_true]
  constructor
  · intro ⟨selected, ⟨old, hold, hdue, row', hrefreshed, hwatched, hselected⟩, heq⟩
    obtain rfl : old = row := by
      refine q.eq_of_id hold hrow ?_
      rw [← heq, hselected, hid hrefreshed]
    exact ⟨hdue, row', hrefreshed, hwatched⟩
  · intro ⟨hdue, row', hrefreshed, hwatched⟩
    exact ⟨_, ⟨row, hrow, hdue, row', hrefreshed, hwatched, rfl⟩, hid hrefreshed⟩

/-- A row that stays on the queue keeps everything but its plays. -/
theorem exists_left (hrow : row ∈ q.rows)
    (hstays : ∀ row' ∈ q.rows, isDue rt row' = true → ∀ new,
      refreshed rt w libraries row' = some new →
      isWatchedSince rt new = true → row.id ≠ row'.id) :
    ∃ left ∈ (selectItemsToDelete rt w libraries q).2.rows,
      left.withoutPlays = row.withoutPlays := by
  have hmem : row.withoutPlays ∈
      ((refreshWatchState rt w libraries (q.rows.filter (isDue rt))).2.foldl
        QueueTable.writeWatchState q).rows.map QueueRow.withoutPlays := by
    rw [QueueTable.withoutPlays_foldl]
    exact List.mem_map_of_mem hrow
  obtain ⟨left, hleft, heq⟩ := List.mem_map.1 hmem
  have hid : left.id = row.id := (congrArg QueueRow.id heq :)
  refine ⟨left, mem_selectItemsToDelete_table.2 ⟨hleft, ?_⟩, heq⟩
  rw [hid]
  exact hstays

/-- A postponed row is left pending. -/
theorem isLeftPending_of_postponed (hrow : row ∈ q.rows) (hdue : isDue rt row = true)
    (hpostponed : refreshed rt w libraries row = none) : IsLeftPending rt w libraries q row := by
  have hleft : ∃ left ∈ (selectItemsToDelete rt w libraries q).2.rows,
      left.withoutPlays = row.withoutPlays :=
    exists_left hrow fun row' hrow' _ new hnew _ hid => by
      obtain rfl := q.eq_of_id hrow hrow' hid
      rw [hpostponed] at hnew
      cases hnew
  obtain ⟨left, hleft, heq⟩ := hleft
  have hpending : row.status = .pending := by
    simp only [isDue, Bool.and_eq_true, decide_eq_true_eq] at hdue
    exact hdue.1
  have hid : left.id = row.id := (congrArg QueueRow.id heq :)
  have hstatus : left.status = row.status := (congrArg QueueRow.status heq :)
  exact ⟨left, hleft, hid, hstatus.trans hpending⟩

/-- A row that was played since is off the queue. -/
theorem not_isLeftPending (hrow : row ∈ q.rows) (hdue : isDue rt row = true)
    (hrefreshed : refreshed rt w libraries row = some row') (hsince : StoredSince rt row') :
    ¬ IsLeftPending rt w libraries q row := by
  intro ⟨left, hleft, hid, _⟩
  exact (mem_selectItemsToDelete_table.1 hleft).2 row hrow hdue row' hrefreshed
    (isWatchedSince_iff.2 hsince) hid

/-! ### What the guard knows -/

/-- A library item is found only on a server that can be contacted. -/
theorem contactable_of_groupItem (h : groupItem w row serverId = some item) :
    Contactable (getClient w.cfg serverId) := by
  by_contra hclient
  have hnone : ∀ path types, w.lookup (findItemByPath w.cfg path types serverId) = none := by
    intro path types
    have hpure : findItemByPath w.cfg path types serverId = pure none :=
      if_neg fun h => hclient h.2
    rw [hpure]
    rfl
  simp only [groupItem] at h
  split at h
  · cases h
  · rw [hnone] at h
    cases h

/-- The largest text that the listing of the episodes leads to. -/
theorem latestSince_iff (hlist : (w.server serverId).listDown item.id = false) :
    LatestSince rt w row serverId item ↔
      ∃ date, ((w.server serverId).listedStops item.id).max? = some date ∧ IsSince rt row date := by
  have hstops : {d | ∃ episode ∈ ((w.server serverId).episodes item.id).take 500,
      ∃ entry ∈ (w.server serverId).log, (w.server serverId).recent entry = true ∧
        entry.isStop = true ∧ entry.itemId = episode ∧ entry.date = d} =
      {d | d ∈ (w.server serverId).listedStops item.id} := by
    ext d
    simp only [MediaServerState.listedStops, MediaServerState.getItemsInLibrary, hlist,
      MediaServerState.entries, stopDates, Bool.false_eq_true, if_false, List.drop_zero,
      List.mem_flatMap, List.mem_map, List.mem_filter, Bool.and_eq_true, decide_eq_true_eq,
      Set.mem_ofPred_eq]
    grind
  simp only [LatestSince, hstops, List.max?_eq_some_iff, IsGreatest, upperBounds, Set.mem_ofPred_eq]
  exact exists_congr fun date => and_comm

/-- **What the guard knows** of a row that is not postponed: the stored play, and the largest text
among the stops that the lookups reach. -/
theorem exists_refreshed (hconsolidated : isConsolidatedId row.embyId = true)
    (hlog : Contactable (getClient w.cfg (libraryServer libraries row.libraryId)) →
      (w.server (libraryServer libraries row.libraryId)).LogReadable) :
    ∃ row', refreshed rt w libraries row = some row' ∧ (StoredSince rt row' ↔
      StoredSince rt row ∨ ∃ item, Found w row (libraryServer libraries row.libraryId) item ∧
        LatestSince rt w row (libraryServer libraries row.libraryId) item) := by
  generalize hserver : libraryServer libraries row.libraryId = serverId at hlog ⊢
  by_cases hclient : Contactable (getClient w.cfg serverId)
  · have hactivity : (w.server serverId).getPlayActivity = some _ :=
      MediaServerState.getPlayActivity_eq_some_iff.2 ⟨hlog hclient, rfl⟩
    refine ⟨_,
      by simp only [refreshed, hserver, if_pos hclient, hactivity, Option.map_some]; rfl, ?_⟩
    rw [refreshRow, reportedPlay, if_pos hconsolidated, consolidatedLastPlay_eq hactivity]
    cases hitem : groupItem w row serverId with
    | none => simp [Found, hitem]
    | some item =>
        cases hlist : (w.server serverId).listDown item.id with
        | true =>
            have hnone : (w.server serverId).listedStops item.id = [] := by
              simp [MediaServerState.listedStops, MediaServerState.getItemsInLibrary, hlist]
            simp [Found, hitem, hlist, hnone]
        | false =>
            simp only [Found, hitem, Option.bind_some, Option.some.injEq, and_assoc,
              exists_eq_left', hlist, true_and, latestSince_iff hlist]
            cases ((w.server serverId).listedStops item.id).max? with
            | none => simp
            | some date => simp [storedSince_advanceLastPlayed]
  · refine ⟨row, by simp only [refreshed, hserver, if_neg hclient], (or_iff_left ?_).symm⟩
    intro h
    obtain ⟨item, hfound, _⟩ := h
    exact hclient (contactable_of_groupItem hfound.1)

/-! ### When the guard holds -/

/-- **Exactly when the guard holds** for a due consolidated row: its server can be contacted and the
log cannot be read, so that the row is postponed; or the lookups come back with the item of its
group and, if an episode was stopped since, the stored play or the largest text among the stops that
were read says so. -/
theorem guardsGroup_iff (hrow : row ∈ q.rows) (hdue : isDue rt row = true)
    (hconsolidated : isConsolidatedId row.embyId = true) :
    GuardsGroup rt arr media w libraries q row ↔
      Contactable (getClient w.cfg (libraryServer libraries row.libraryId)) ∧
          ¬ (w.server (libraryServer libraries row.libraryId)).LogReadable ∨
        ∃ m, Identified arr media w row (libraryServer libraries row.libraryId) m ∧
          (GroupWatchedSince rt arr media w row (libraryServer libraries row.libraryId) →
            StoredSince rt row ∨
              LatestSince rt w row (libraryServer libraries row.libraryId) m.listed) := by
  rw [GuardsGroup]
  generalize hserver : libraryServer libraries row.libraryId = serverId
  by_cases hpostponed : Contactable (getClient w.cfg serverId) ∧ ¬ (w.server serverId).LogReadable
  · -- a row that is not read is neither selected nor taken off the queue
    have hnone : refreshed rt w libraries row = none := by
      simp only [refreshed, hserver, if_pos hpostponed.1,
        MediaServerState.getPlayActivity_eq_none_iff.2 hpostponed.2, Option.map_none]
    have hselected : ¬ IsSelected rt w libraries q row := by
      simp [isSelected_iff hrow, hnone]
    refine iff_of_true ⟨fun h => absurd h hselected, fun _ => ⟨hselected, ?_⟩⟩ (.inl hpostponed)
    exact isLeftPending_of_postponed hrow hdue hnone
  · have hlog : Contactable (getClient w.cfg serverId) → (w.server serverId).LogReadable :=
      fun hclient => by_contra fun hdown => hpostponed ⟨hclient, hdown⟩
    have hexists : ∃ row', refreshed rt w libraries row = some row' ∧ _ :=
      exists_refreshed hconsolidated (by rwa [hserver])
    obtain ⟨row', hrefreshed, hsince⟩ := hexists
    rw [hserver] at hsince
    have hselected : IsSelected rt w libraries q row ↔ ¬ StoredSince rt row' := by
      simp [isSelected_iff hrow, hdue, hrefreshed]
    rw [or_iff_right hpostponed, hselected]
    by_cases hidentified : ∃ m, Identified arr media w row serverId m
    · -- what the lookups come back with is the item of the group
      have honly : ∀ m, Identified arr media w row serverId m →
          (StoredSince rt row' ↔ StoredSince rt row ∨ LatestSince rt w row serverId m.listed) := by
        intro m hm
        rw [hsince]
        refine or_congr_right ⟨?_, fun h => ⟨m.listed, hm.2.2, h⟩⟩
        rintro ⟨item, hitem, hlatest⟩
        obtain rfl : item = m.listed := Option.some.inj (hitem.1.symm.trans hm.2.2.1)
        exact hlatest
      have hfound : ¬ ∀ m, ¬ Identified arr media w row serverId m := not_forall_not.2 hidentified
      simp only [hidentified, hfound, true_and, false_implies, and_true]
      constructor
      · intro h
        obtain ⟨m, hm⟩ := hidentified
        refine ⟨m, hm, fun hwatched => (honly m hm).1 ?_⟩
        by_contra hstored
        exact h hstored hwatched
      · rintro ⟨m, hm, h⟩ hstored hwatched
        exact hstored ((honly m hm).2 (h hwatched))
    · -- an unidentified row is selected, or taken off the queue
      refine iff_of_false (fun h => ?_) fun h => hidentified (h.imp fun m => And.left)
      obtain ⟨hknown, hleft⟩ := h.2 fun m hm => hidentified ⟨m, hm⟩
      exact not_isLeftPending hrow hdue hrefreshed (not_not.1 hknown) hleft

/-! A series that was put on the queue on the first of January, and an episode of it that was played
in February. -/

/-- Two moments as they are written. -/
def sampleRuntime : Runtime where
  parseIsoDt s :=
    if s = "2025-01-01T00:00:00+00:00" then some 1735689600000000
    else if s = "2025-02-10T20:00:00+00:00" then some 1739217600000000
    else none
  now := 1740787200000000
  isoformat _ := "2025-03-01T00:00:00+00:00"

/-- The row of the series. -/
def seriesRow : QueueRow where
  id := 7
  embyId := "sonarr-series:304"
  title := "Dark"
  mediaType := "Series"
  libraryId := "shows"
  libraryName := "Shows"
  filePath := "/tv/Dark/Season 01/E01.mkv"
  detectedAt := "2025-01-01T00:00:00+00:00"
  deleteAt := "2025-02-01T00:00:00+00:00"
  sonarrSeriesId := some 304

/-- The queue with this row alone. -/
def seriesQueue : QueueTable where
  rows := [seriesRow]
  nextId := 8
  lt_nextId := by simp [seriesRow]
  id_nodup := List.nodup_singleton _
  embyId_nodup := List.nodup_singleton _

/-- The row of a series of the second Sonarr server. -/
def namedRow : QueueRow := { seriesRow with arrServerUrl := some "http://sonarr-anime:8989" }

def namedQueue : QueueTable := .single namedRow

/-- Both Sonarr servers have a series with the identifier of the row. -/
def seriesLibraries (url : String) : ArrLibrary :=
  if url = "http://sonarr:8989" then { series := [{ id := 304, path := "/tv/Lost" }] }
  else { series := [{ id := 304, path := "/tv/Dark" }] }

/-- Both series are in the media library. -/
def seriesMedia : MediaLibrary where
  items := [⟨"s1", .series, "/tv/Dark", "/tv/Dark", none, [1]⟩,
    ⟨"s2", .series, "/tv/Lost", "/tv/Lost", none, [1]⟩]
  nodup := by decide

/-- Two Sonarr servers, and one media server with an episode of each series. -/
def seriesSources (answer : ∀ q : Query, q.Answer) : WatchSources where
  cfg := twoSonarrs
  answer := answer
  server _ :=
    { log := [{ type := "playback.stop", itemId := "e1", date := "2025-02-10T20:00:00+00:00" }]
      recent := fun _ => true
      logDown := fun _ => false
      episodes := fun id => if id = "s1" then ["e1"] else ["e2"]
      listDown := fun _ => false }

/-- All services answer. -/
def answerAll : ∀ q : Query, q.Answer := servicesAnswer seriesLibraries fun _ => seriesMedia

/-- All services answer but the Sonarr server that comes first. -/
def answerSecond : ∀ q : Query, q.Answer
  | .sonarrSeriesById url key id =>
      if url = "http://sonarr:8989" then .error .fatal else answerAll (.sonarrSeriesById url key id)
  | q => answerAll q

theorem isGroupItem_dark : IsGroupItem seriesLibraries twoSonarrs namedRow.toQueueEntry
    ⟨"s1", .series, "/tv/Dark", "/tv/Dark", none, [1]⟩ :=
  ⟨{ id := 304, path := "/tv/Dark" }, .inl (by decide), rfl, rfl⟩

/-- The second server is the one that the row names, so that the play is seen. -/
theorem guardsGroup_iff_answered :
    GuardsGroup sampleRuntime seriesLibraries (fun _ => seriesMedia) (seriesSources answerSecond) []
      namedQueue namedRow := by
  have hdue : isDue sampleRuntime namedRow = true := by decide
  have hfound : Found (seriesSources answerSecond) namedRow "0" ⟨"s1", "/tv/Dark"⟩ :=
    ⟨by decide +kernel, rfl⟩
  refine (guardsGroup_iff (List.mem_singleton_self _) hdue rfl).2
    (.inr ⟨_, ⟨List.mem_cons_self, isGroupItem_dark, hfound⟩, fun _ => .inr ?_⟩)
  have hsince : IsSince sampleRuntime namedRow "2025-02-10T20:00:00+00:00" :=
    ⟨1735689600000000, 1739217600000000, rfl, rfl, by decide⟩
  refine ⟨_, hsince,
    ⟨"e1", List.mem_singleton_self _, _, List.mem_singleton_self _, rfl, rfl, rfl, rfl⟩,
    ?_⟩
  intro date ⟨_, _, entry, hentry, _, _, _, hdate⟩
  obtain rfl := List.mem_singleton.1 hentry
  exact hdate.ge

/-- When Sonarr does not answer, and when the first server answers for its own series, the row is
selected although an episode was played. -/
theorem not_guardsGroup_unanswered :
    (¬ GuardsGroup sampleRuntime seriesLibraries (fun _ => seriesMedia)
      (seriesSources fun _ => .error .fatal) [] namedQueue namedRow) ∧
    ¬ GuardsGroup sampleRuntime seriesLibraries (fun _ => seriesMedia) (seriesSources answerAll) []
      namedQueue namedRow := by
  have hdue : isDue sampleRuntime namedRow = true := by decide
  have hwatched : ∀ answer, GroupWatchedSince sampleRuntime seriesLibraries (fun _ => seriesMedia)
      (seriesSources answer) namedRow "0" := fun answer =>
    ⟨_, List.mem_cons_self, isGroupItem_dark, "e1", List.mem_singleton_self _, _,
      List.mem_singleton_self _, rfl, rfl, 1735689600000000, 1739217600000000, rfl, rfl, by decide⟩
  have hselected : ∀ answer, refreshed sampleRuntime (seriesSources answer) [] namedRow =
      some namedRow → ¬ GuardsGroup sampleRuntime seriesLibraries (fun _ => seriesMedia)
        (seriesSources answer) [] namedQueue namedRow := by
    intro answer hrefreshed hlaw
    have hbatch : IsSelected sampleRuntime (seriesSources answer) [] namedQueue namedRow :=
      (isSelected_iff (List.mem_singleton_self _)).2
        ⟨hdue, namedRow, hrefreshed, fun ⟨_, hdate, _⟩ => nomatch hdate⟩
    exact (hlaw.1 hbatch).2 (hwatched answer)
  exact ⟨hselected _ (by decide +kernel), hselected _ (by decide +kernel)⟩

end Hygie
