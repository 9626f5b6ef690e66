/-
**The last look at the watch state before a deletion.**

Before a batch deletes anything, the watch state of its rows is read from their media servers, and a
row that was played after it was put on the queue is taken off instead.  The activity log tells what
was played.  A consolidated row stands for a season or a series and is in no log itself: its library
item is found by its path, the episodes below the item are listed, and their entries in the log
count.

Of these lookups only the log reports a failure.  The others answer with nothing, as they do when
there is nothing to be found, and then the row goes on with what the last scan wrote.  The listing
stops at five hundred episodes, and the latest of several dates is the largest text.

Main definitions:

* `MediaServerState`, `WatchSources` — what the servers hold, and which requests fail;
* `getPlayActivity`, `consolidatedLastPlay` — the plays of the items, and of a group of episodes;
* `refreshRow`, `refreshWatchState`, `rescueWatched`, `selectItemsToDelete` — the selection of a
  batch.

Main results:

* `MediaServerState.getPlayActivity_eq_some_iff` — **the activity log**, page by page;
* `consolidatedLastPlay_eq` — **the play of a consolidated row** is the largest text among the
  stops of the listed episodes;
* `mem_selectItemsToDelete`, `mem_selectItemsToDelete_table` — **which rows a batch gets**, and
  which rows stay on the queue.
-/

import Hygie.DeletionPipeline
import Hygie.PlexMirror
import Hygie.QueueTable
import Mathlib.Data.String.Basic

set_option relaxedAutoImplicit false
set_option autoImplicit false

namespace Hygie

open PyText

/-! ### What the services hold -/

/-- An entry of the activity log; an absent text is empty. -/
structure LogEntry where
  type : String
  itemId : String
  date : String
  deriving DecidableEq, Repr

/-- What a media server holds, and which requests to it fail. -/
structure MediaServerState where
  log : List LogEntry
  /-- The entry is not older than the date asked for. -/
  recent : LogEntry → Bool
  /-- The page of the log that starts there cannot be read. -/
  logDown : ℕ → Bool
  /-- The episodes below an item. -/
  episodes : String → List String
  /-- The episodes below an item cannot be listed. -/
  listDown : String → Bool

/-- The services that the watch state is read from: the settings, what Radarr, Sonarr and the search
by path answer, and the state of every media server. -/
structure WatchSources where
  cfg : Config
  answer : ∀ q : Query, q.Answer
  server : String → MediaServerState

/-- What a lookup finds. -/
def WatchSources.lookup {α : Type} (w : WatchSources) (x : Act (Option α)) : Option α :=
  match (Prog.play w.answer x).2 with
  | .returned found => found
  | _ => none

/-! ### The activity log -/

/-- The dates of the last stops by item. -/
abbrev Activity : Type := String → Option String

/-- The entry says that an item was played. -/
def LogEntry.isStop (entry : LogEntry) : Bool :=
  entry.type = "playback.stop" && entry.itemId ≠ "" && entry.date ≠ ""

/-- What an entry adds: the larger text is taken for the later date. -/
def addEntry (result : Activity) (entry : LogEntry) : Activity :=
  if entry.isStop then
    match result entry.itemId with
    | none => Function.update result entry.itemId (some entry.date)
    | some date =>
        if date < entry.date then Function.update result entry.itemId (some entry.date) else result
  else result

namespace MediaServerState

variable (s : MediaServerState)

/-- The entries that the log is asked for. -/
def entries : List LogEntry := s.log.filter s.recent

/-- A page of the log, and the number of all entries. -/
def logPage (start : ℕ) : Option (List LogEntry × ℕ) :=
  if s.logDown start then none else some ((s.entries.drop start).take 500, s.entries.length)

/-- The loop of `get_play_activity`. -/
def readLog : ℕ → ℕ → Activity → Option Activity
  | 0, _, _ => none
  | fuel + 1, start, result =>
      match s.logPage start with
      | none => none
      | some (items, total) =>
          if items = [] ∨ total ≤ start + items.length then some (items.foldl addEntry result)
          else readLog fuel (start + items.length) (items.foldl addEntry result)

/-- `get_play_activity`; nothing stands for the exception. -/
def getPlayActivity : Option Activity := s.readLog (s.entries.length + 1) 0 fun _ => none

/-- `get_items_in_library`: a failure is an empty answer. -/
def getItemsInLibrary (parentId : String) (limit start : ℕ) : List String :=
  if s.listDown parentId then [] else ((s.episodes parentId).drop start).take limit

end MediaServerState

/-! ### The selection -/

/-- The rows that carry a synthetic identifier. -/
def isConsolidatedId (embyId : String) : Bool :=
  startsWith embyId "sonarr-series:" || startsWith embyId "sonarr-season:"

section Selection

variable (rt : Runtime) (w : WatchSources)

/-- The library item of a consolidated row. -/
def groupItem (row : QueueRow) (serverId : String) : Option EmbyItem :=
  match truthyId row.sonarrSeriesId with
  | none => none
  | some seriesId =>
      let series := w.lookup (sonarrGetSeriesByIdAny w.cfg seriesId)
      w.lookup (findItemByPath w.cfg
        (targetPath row.toQueueEntry ((series.map SonarrSeries.path).getD ""))
        (targetType row.toQueueEntry) serverId)

/-- `_consolidated_last_play`. -/
def consolidatedLastPlay (row : QueueRow) (serverId : String) (activity : Activity) :
    Option String :=
  match groupItem w row serverId with
  | none => none
  | some item =>
      (((w.server serverId).getItemsInLibrary item.id 500 0).filterMap activity).max?

/-- `_advance_last_played`: forward, never backward. -/
def advanceLastPlayed (row : QueueRow) (played : String) : QueueRow :=
  match rt.parseIsoDt played with
  | none => row
  | some fresh =>
      match row.lastPlayed.bind rt.parseIsoDt with
      | none => { row with lastPlayed := some played }
      | some current => if current < fresh then { row with lastPlayed := some played } else row

/-- The play of a row that its media server reports. -/
def reportedPlay (row : QueueRow) (serverId : String) (activity : Activity) : Option String :=
  if isConsolidatedId row.embyId then consolidatedLastPlay w row serverId activity
  else activity row.embyId

/-- A row after the look at the log. -/
def refreshRow (serverId : String) (activity : Activity) (row : QueueRow) : QueueRow :=
  match reportedPlay w row serverId activity with
  | none => row
  | some played => advanceLastPlayed rt row played

/-- A write of the watch state: the play, the number of views it proves, and the item. -/
structure WatchWrite where
  played : String
  viewCount : ℤ
  embyId : String
  deriving DecidableEq, Repr

/-- The write of a row. -/
def watchWrite (serverId : String) (activity : Activity) (row : QueueRow) : Option WatchWrite :=
  (reportedPlay w row serverId activity).map fun played =>
    { played := played
      viewCount := if isConsolidatedId row.embyId then max row.viewCount 1 else 1
      embyId := row.embyId }

/-- The rows that a write reaches: those of the item that are pending and know no later play. -/
def WatchWrite.reaches (write : WatchWrite) (row : QueueRow) : Bool :=
  row.embyId = write.embyId && row.status = .pending &&
    match row.lastPlayed with
    | none => true
    | some date => date = "" || date < write.played

/-- `update_activity_log_batch` and `update_consolidated_watch_state`, for one item. -/
def QueueTable.writeWatchState (q : QueueTable) (write : WatchWrite) : QueueTable :=
  q.update write.reaches
    (fun row =>
      { row with lastPlayed := some write.played, viewCount := max row.viewCount write.viewCount })
    fun _ => ⟨rfl, rfl⟩

/-- The rows of one server that stay in the batch, and what is written: nothing is known of a server
that cannot be contacted, and rows are postponed when the log cannot be read. -/
def refreshServer (serverId : String) (rows : List QueueRow) : List QueueRow × List WatchWrite :=
  if Contactable (getClient w.cfg serverId) then
    match (w.server serverId).getPlayActivity with
    | none => ([], [])
    | some activity =>
        let (consolidated, direct) := rows.partition fun row => isConsolidatedId row.embyId
        (rows.map (refreshRow rt w serverId activity),
          (direct ++ consolidated).filterMap (watchWrite w serverId activity))
  else (rows, [])

/-- `_load_library_server_map`, with the default of its lookups. -/
def libraryServer (libraries : List Library) (libraryId : String) : String :=
  match libraries.find? (·.id = libraryId) with
  | some lib => (truthyText lib.serverId).getD "0"
  | none => "0"

/-- `_refresh_watch_state_before_deletion`: the servers in the order of their first rows. -/
def refreshWatchState (libraries : List Library) (rows : List QueueRow) :
    List QueueRow × List WatchWrite :=
  let servers := (rows.map fun row => libraryServer libraries row.libraryId).eraseDups
  let refreshed := servers.map fun serverId =>
    refreshServer rt w serverId
      (rows.filter fun row => libraryServer libraries row.libraryId = serverId)
  (refreshed.flatMap Prod.fst, refreshed.flatMap Prod.snd)

/-- The row was played after it was put on the queue. -/
def isWatchedSince (row : QueueRow) : Bool :=
  match rt.parseIsoDt row.detectedAt, row.lastPlayed.bind rt.parseIsoDt with
  | some detected, some played => detected < played
  | _, _ => false

/-- `_rescue_watched_since_queued`: the rows that may go on, and the table without the others. -/
def rescueWatched (rows : List QueueRow) (q : QueueTable) : List QueueRow × QueueTable :=
  let watched := rows.filter (isWatchedSince rt)
  (rows.filter fun row => !isWatchedSince rt row, q.delete fun row => row.id ∈ watched.map (·.id))

/-- `get_pending_queue`. -/
def isDue (row : QueueRow) : Bool := row.status = .pending && row.deleteAt ≤ rt.isoformat rt.now

/-- `_select_items_to_delete`: the items of the batch, and the table. -/
def selectItemsToDelete (libraries : List Library) (q : QueueTable) : List Item × QueueTable :=
  let (rows, writes) := refreshWatchState rt w libraries (q.rows.filter (isDue rt))
  let (rows, q) := rescueWatched rt rows (writes.foldl QueueTable.writeWatchState q)
  (rows.map fun row => { row with serverId := some (libraryServer libraries row.libraryId) }, q)

end Selection

/-! ### The log -/

section Log

variable {s : MediaServerState} {entries : List LogEntry} {activity result : Activity}
  {id date : String}

/-- The dates of the stops of an item. -/
def stopDates (entries : List LogEntry) (id : String) : List String :=
  (entries.filter fun entry => entry.isStop && entry.itemId = id).map (·.date)

/-- Reading entries keeps the largest text for every item. -/
theorem foldl_addEntry :
    entries.foldl addEntry result id = ((result id).toList ++ stopDates entries id).max? := by
  induction entries generalizing result with
  | nil => cases h : result id <;> simp [stopDates, h]
  | cons entry entries ih =>
      rw [List.foldl_cons, ih]
      by_cases hstop : entry.isStop = true ∧ entry.itemId = id
      · obtain ⟨hstop, rfl⟩ := hstop
        have hdates : stopDates (entry :: entries) entry.itemId =
            entry.date :: stopDates entries entry.itemId := by simp [stopDates, hstop]
        rw [hdates]
        cases h : result entry.itemId with
        | none => simp [addEntry, hstop, h]
        | some date =>
            have hmax : addEntry result entry entry.itemId = some (max date entry.date) := by
              simp only [addEntry, hstop, h, if_true]
              split_ifs with hlt
              · rw [Function.update_self, max_eq_right hlt.le]
              · rw [h, max_eq_left (not_lt.1 hlt)]
            simp only [hmax, Option.toList_some, List.cons_append, List.nil_append, List.max?_cons',
              List.foldl_cons]
      · have hsame : addEntry result entry id = result id := by
          simp only [addEntry]
          split_ifs with hentry
          · have hne : id ≠ entry.itemId := fun h => hstop ⟨hentry, h.symm⟩
            cases h : result entry.itemId with
            | none => simp only [Function.update_of_ne hne]
            | some date =>
                simp only
                split_ifs
                · exact Function.update_of_ne hne ..
                · rfl
          · rfl
        have hdates : stopDates (entry :: entries) id = stopDates entries id := by
          simp only [stopDates, List.filter_cons, Bool.and_eq_true, decide_eq_true_eq, hstop,
            if_false]
        rw [hsame, hdates]

/-- The log can be read from a page on: that page and all that follow it. -/
def MediaServerState.LogReadableFrom (s : MediaServerState) (start : ℕ) : Prop :=
  ∀ k, (k = 0 ∨ start + 500 * k < s.entries.length) → s.logDown (start + 500 * k) = false

/-- **The loop over the pages** reads every entry, if no page fails. -/
theorem MediaServerState.readLog_eq_some_iff {fuel start : ℕ} (hstart : start ≤ s.entries.length)
    (hfuel : s.entries.length < start + fuel) :
    s.readLog fuel start result = some activity ↔
      s.LogReadableFrom start ∧ (s.entries.drop start).foldl addEntry result = activity := by
  induction fuel generalizing start result with
  | zero => omega
  | succ fuel ih =>
      by_cases hdown : s.logDown start = true
      · have hpage : s.logPage start = none := by simp [logPage, hdown]
        simp only [readLog, hpage, reduceCtorEq, false_iff, not_and]
        intro hreadable
        have hup := hreadable 0 (.inl rfl)
        simp [hdown] at hup
      · have hpage : s.logPage start =
            some ((s.entries.drop start).take 500, s.entries.length) := by simp [logPage, hdown]
        have hlength : ((s.entries.drop start).take 500).length =
            min 500 (s.entries.length - start) := by simp
        simp only [readLog, hpage]
        split_ifs with hlast
        · -- the last page: the rest of the log has at most five hundred entries
          have hrest : s.entries.length ≤ start + 500 := by
            rcases hlast with hempty | hlast
            · rw [hempty, List.length_nil] at hlength
              omega
            · omega
          have hreadable : s.LogReadableFrom start := by
            intro k hk
            obtain rfl : k = 0 := by omega
            simpa using hdown
          rw [List.take_of_length_le (by rw [List.length_drop]; omega), Option.some.injEq]
          simp [hreadable]
        · -- a full page, and the next one starts after it
          obtain ⟨_, hmore⟩ := not_or.1 hlast
          have hfull : ((s.entries.drop start).take 500).length = 500 := by omega
          rw [hfull] at hmore ⊢
          rw [ih (by omega) (by omega)]
          have hsplit : (s.entries.drop start).foldl addEntry result =
              (s.entries.drop (start + 500)).foldl addEntry
                (((s.entries.drop start).take 500).foldl addEntry result) := by
            rw [← List.foldl_append, ← List.drop_drop, List.take_append_drop]
          rw [hsplit]
          refine and_congr_left fun _ => ⟨fun h k hk => ?_, fun h k hk => ?_⟩
          · rcases k with _ | k
            · simpa using hdown
            · have hup := h k (.inr (by omega))
              rwa [show start + 500 * (k + 1) = start + 500 + 500 * k by omega]
          · have hup := h (k + 1) (.inr (by omega))
            rwa [show start + 500 * (k + 1) = start + 500 + 500 * k by omega] at hup

/-- The log can be read. -/
def MediaServerState.LogReadable (s : MediaServerState) : Prop := s.LogReadableFrom 0

/-- **The activity log**: the largest text among the stops of every item, if every page of it can be
read. -/
theorem MediaServerState.getPlayActivity_eq_some_iff :
    s.getPlayActivity = some activity ↔
      s.LogReadable ∧ activity = fun id => (stopDates s.entries id).max? := by
  rw [getPlayActivity, s.readLog_eq_some_iff (Nat.zero_le _) (by omega), List.drop_zero]
  refine and_congr_right fun _ => ?_
  have hactivity : s.entries.foldl addEntry (fun _ => none) = fun id =>
      (stopDates s.entries id).max? := funext fun id => foldl_addEntry
  rw [hactivity]
  exact eq_comm

theorem MediaServerState.getPlayActivity_eq_none_iff :
    s.getPlayActivity = none ↔ ¬ s.LogReadable := by
  constructor
  · intro hnone hreadable
    have hsome := (s.getPlayActivity_eq_some_iff).2 ⟨hreadable, rfl⟩
    rw [hnone] at hsome
    cases hsome
  · intro hdown
    rcases Option.eq_none_or_eq_some s.getPlayActivity with hnone | ⟨activity, hsome⟩
    · exact hnone
    · exact absurd (s.getPlayActivity_eq_some_iff.1 hsome).1 hdown

end Log

/-- The largest of the largest is the largest of all. -/
theorem max?_filterMap_max? {α : Type} {l : List α} {f : α → List String} :
    (l.filterMap fun a => (f a).max?).max? = (l.flatMap f).max? := by
  refine Option.ext fun d => ?_
  simp only [List.max?_eq_some_iff, List.mem_filterMap, List.mem_flatMap]
  constructor
  · intro ⟨⟨a, ha, hd, _⟩, hmax⟩
    refine ⟨⟨a, ha, hd⟩, fun b ⟨a', ha', hb⟩ => ?_⟩
    obtain ⟨m, hm⟩ := Option.isSome_iff_exists.1 (List.isSome_max?_iff.2 (List.ne_nil_of_mem hb))
    have hgreatest := List.max?_eq_some_iff.1 hm
    exact (hgreatest.2 b hb).trans (hmax m ⟨a', ha', hgreatest⟩)
  · intro ⟨⟨a, ha, hd⟩, hmax⟩
    exact ⟨⟨a, ha, hd, fun b hb => hmax b ⟨a, ha, hb⟩⟩, fun m ⟨a', ha', hm, _⟩ =>
      hmax m ⟨a', ha', hm⟩⟩

/-! ### The selection of a row -/

section Select

variable {rt : Runtime} {w : WatchSources} {libraries : List Library} {q : QueueTable}
  {row row' : QueueRow} {rows : List QueueRow} {serverId : String} {activity : Activity}

/-- The dates of the stops of the listed episodes below an item. -/
def MediaServerState.listedStops (s : MediaServerState) (itemId : String) : List String :=
  (s.getItemsInLibrary itemId 500 0).flatMap (stopDates s.entries)

/-- **The play of a consolidated row** is the largest text among the stops of the listed episodes.
-/
theorem consolidatedLastPlay_eq
    (hactivity : (w.server serverId).getPlayActivity = some activity) :
    consolidatedLastPlay w row serverId activity =
      (groupItem w row serverId).bind fun item =>
      ((w.server serverId).listedStops item.id).max? := by
  obtain ⟨_, rfl⟩ := MediaServerState.getPlayActivity_eq_some_iff.1 hactivity
  rw [consolidatedLastPlay]
  cases groupItem w row serverId with
  | none => rfl
  | some item => exact max?_filterMap_max?

/-- A row after the look at the watch state of its server; nothing when it is postponed. -/
def refreshed (rt : Runtime) (w : WatchSources) (libraries : List Library) (row : QueueRow) :
    Option QueueRow :=
  let serverId := libraryServer libraries row.libraryId
  if Contactable (getClient w.cfg serverId) then
    (w.server serverId).getPlayActivity.map fun activity => refreshRow rt w serverId activity row
  else some row

theorem advanceLastPlayed_eq {played : String} :
    advanceLastPlayed rt row played = row ∨
      advanceLastPlayed rt row played = { row with lastPlayed := some played } := by
  simp only [advanceLastPlayed]
  split
  · exact .inl rfl
  · split
    · exact .inr rfl
    · split_ifs
      · exact .inr rfl
      · exact .inl rfl

/-- Only the last play of a row changes. -/
theorem refreshed_eq (h : refreshed rt w libraries row = some row') :
    { row' with lastPlayed := row.lastPlayed } = row := by
  simp only [refreshed] at h
  split_ifs at h with hclient
  · obtain ⟨activity, _, rfl⟩ := Option.map_eq_some_iff.1 h
    simp only [refreshRow]
    split
    · rfl
    · next played _ =>
        have hadvance : advanceLastPlayed rt row played = row ∨ _ := advanceLastPlayed_eq
        rcases hadvance with heq | heq <;> rw [heq]
  · obtain rfl := Option.some.inj h
    rfl

theorem mem_refreshServer :
    row' ∈ (refreshServer rt w serverId
        (rows.filter fun row => libraryServer libraries row.libraryId = serverId)).1 ↔
      ∃ row ∈ rows, libraryServer libraries row.libraryId = serverId ∧
        refreshed rt w libraries row = some row' := by
  simp only [refreshServer]
  split_ifs with hclient
  · have hrefreshed : ∀ row, libraryServer libraries row.libraryId = serverId →
        refreshed rt w libraries row = (w.server serverId).getPlayActivity.map fun activity =>
          refreshRow rt w serverId activity row := by
      intro row hserver
      simp only [refreshed, hserver, if_pos hclient]
    cases hactivity : (w.server serverId).getPlayActivity with
    | none =>
        simp only [List.not_mem_nil, false_iff, not_exists, not_and]
        intro row _ hserver
        simp [hrefreshed row hserver, hactivity]
    | some activity =>
        simp only [List.mem_map, List.mem_filter, decide_eq_true_eq]
        constructor
        · intro ⟨row, ⟨hrow, hserver⟩, heq⟩
          exact ⟨row, hrow, hserver,
            by rw [hrefreshed row hserver, hactivity, Option.map_some, heq]⟩
        · intro ⟨row, hrow, hserver, heq⟩
          rw [hrefreshed row hserver, hactivity, Option.map_some, Option.some.injEq] at heq
          exact ⟨row, ⟨hrow, hserver⟩, heq⟩
  · constructor
    · intro h
      obtain ⟨hrow, hserver⟩ := List.mem_filter.1 h
      have hserver : libraryServer libraries row'.libraryId = serverId := by simpa using hserver
      exact ⟨row', hrow, hserver, by simp only [refreshed, hserver, if_neg hclient]⟩
    · intro ⟨row, hrow, hserver, h⟩
      simp only [refreshed, hserver, if_neg hclient, Option.some.injEq] at h
      subst h
      exact List.mem_filter.2 ⟨hrow, by simpa using hserver⟩

/-- The rows that stay in the batch. -/
theorem mem_refreshWatchState :
    row' ∈ (refreshWatchState rt w libraries rows).1 ↔
      ∃ row ∈ rows, refreshed rt w libraries row = some row' := by
  simp only [refreshWatchState, List.mem_flatMap, List.mem_map, List.mem_eraseDups]
  constructor
  · intro ⟨_, ⟨serverId, _, rfl⟩, h⟩
    obtain ⟨row, hrow, _, heq⟩ := mem_refreshServer.1 h
    exact ⟨row, hrow, heq⟩
  · intro ⟨row, hrow, heq⟩
    exact ⟨_, ⟨libraryServer libraries row.libraryId, ⟨row, hrow, rfl⟩, rfl⟩,
      mem_refreshServer.2 ⟨row, hrow, rfl, heq⟩⟩

/-- **Which rows a batch gets**: the due rows that are not postponed and were not played since. -/
theorem mem_selectItemsToDelete {item : Item} :
    item ∈ (selectItemsToDelete rt w libraries q).1 ↔
      ∃ row ∈ q.rows, isDue rt row = true ∧ ∃ row', refreshed rt w libraries row = some row' ∧
        isWatchedSince rt row' = false ∧
        item = { row' with serverId := some (libraryServer libraries row'.libraryId) } := by
  simp only [selectItemsToDelete, rescueWatched, List.mem_map, List.mem_filter,
    mem_refreshWatchState, Bool.not_eq_true']
  constructor
  · intro ⟨row', ⟨⟨row, ⟨hrow, hdue⟩, heq⟩, hwatched⟩, hitem⟩
    exact ⟨row, hrow, hdue, row', heq, hwatched, hitem.symm⟩
  · intro ⟨row, hrow, hdue, row', heq, hwatched, hitem⟩
    exact ⟨row', ⟨⟨row, ⟨hrow, hdue⟩, heq⟩, hwatched⟩, hitem.symm⟩

/-! ### The table -/

/-- A row without what is known of its plays. -/
def QueueRow.withoutPlays (row : QueueRow) : QueueRow :=
    { row with lastPlayed := none, viewCount := 0 }

/-- Writing the watch state changes nothing else. -/
theorem QueueTable.withoutPlays_writeWatchState {write : WatchWrite} :
    (q.writeWatchState write).rows.map QueueRow.withoutPlays =
      q.rows.map QueueRow.withoutPlays := by
  simp only [writeWatchState, update, List.map_map]
  refine List.map_congr_left fun row _ => ?_
  simp only [Function.comp_apply, setWhere]
  split_ifs <;> rfl

/-- **Writing the watch state**, any number of times, changes nothing else. -/
theorem QueueTable.withoutPlays_foldl {writes : List WatchWrite} :
    (writes.foldl writeWatchState q).rows.map QueueRow.withoutPlays =
      q.rows.map QueueRow.withoutPlays := by
  induction writes generalizing q with
  | nil => rfl
  | cons write writes ih => rw [List.foldl_cons, ih, withoutPlays_writeWatchState]

/-- The last play of a row is the one it had, or that of a write for its item. -/
theorem QueueTable.lastPlayed_foldl {writes : List WatchWrite} {left : QueueRow}
    (h : left ∈ (writes.foldl writeWatchState q).rows) :
    ∃ row ∈ q.rows, left.withoutPlays = row.withoutPlays ∧
      (left.lastPlayed = row.lastPlayed ∨
        ∃ write ∈ writes, write.embyId = row.embyId ∧ left.lastPlayed = some write.played) := by
  induction writes generalizing q with
  | nil => exact ⟨left, h, rfl, .inl rfl⟩
  | cons write writes ih =>
      obtain ⟨mid, hmid, hplays, hlast⟩ := ih h
      obtain ⟨row, hrow, rfl⟩ := mem_update.1 hmid
      have hsame : (setWhere write.reaches (fun row =>
          { row with lastPlayed := some write.played
                     viewCount := max row.viewCount write.viewCount }) row).withoutPlays =
          row.withoutPlays := by
        simp only [setWhere]
        split_ifs <;> rfl
      refine ⟨row, hrow, hplays.trans hsame, ?_⟩
      rcases hlast with hlast | ⟨write', hwrite', hid, hlast⟩
      · simp only [setWhere] at hlast
        split_ifs at hlast with hreaches
        · simp only [WatchWrite.reaches, Bool.and_eq_true, decide_eq_true_eq] at hreaches
          exact .inr ⟨write, List.mem_cons_self .., hreaches.1.1.symm, hlast⟩
        · exact .inl hlast
      · have hembyId : write'.embyId = row.embyId := by
          rw [hid]
          simp only [setWhere]
          split_ifs <;> rfl
        exact .inr ⟨write', List.mem_cons_of_mem _ hwrite', hembyId, hlast⟩

/-- What is written is the play that the server reports of a row. -/
theorem mem_refreshServer_writes {write : WatchWrite}
    (h : write ∈ (refreshServer rt w serverId rows).2) :
    ∃ row ∈ rows, write.embyId = row.embyId ∧ Contactable (getClient w.cfg serverId) ∧
      ∃ activity, (w.server serverId).getPlayActivity = some activity ∧
        reportedPlay w row serverId activity = some write.played := by
  simp only [refreshServer] at h
  split_ifs at h with hclient
  · split at h
    · cases h
    · next activity hactivity =>
        obtain ⟨row, hmem, hwrite⟩ := List.mem_filterMap.1 h
        have hrow : row ∈ rows := by
          simp only [List.partition_eq_filter_filter, List.mem_append, List.mem_filter] at hmem
          tauto
        obtain ⟨played, hplayed, rfl⟩ := Option.map_eq_some_iff.1 hwrite
        exact ⟨row, hrow, rfl, hclient, activity, hactivity, hplayed⟩
  · cases h

theorem mem_refreshWatchState_writes {write : WatchWrite}
    (h : write ∈ (refreshWatchState rt w libraries rows).2) :
    ∃ row ∈ rows, write.embyId = row.embyId ∧
      Contactable (getClient w.cfg (libraryServer libraries row.libraryId)) ∧
      ∃ activity,
        (w.server (libraryServer libraries row.libraryId)).getPlayActivity = some activity ∧
        reportedPlay w row (libraryServer libraries row.libraryId) activity =
          some write.played := by
  simp only [refreshWatchState, List.mem_flatMap, List.mem_map] at h
  obtain ⟨_, ⟨serverId, _, rfl⟩, h⟩ := h
  obtain ⟨row, hmem, hwrite⟩ := mem_refreshServer_writes h
  obtain ⟨hrow, hserver⟩ := List.mem_filter.1 hmem
  obtain rfl := of_decide_eq_true hserver
  exact ⟨row, hrow, hwrite⟩

/-- The rows that the selection takes off the queue: those that were played since. -/
theorem mem_selectItemsToDelete_table {left : QueueRow} :
    left ∈ (selectItemsToDelete rt w libraries q).2.rows ↔
      left ∈ ((refreshWatchState rt w libraries (q.rows.filter (isDue rt))).2.foldl
        QueueTable.writeWatchState q).rows ∧
      ∀ row ∈ q.rows, isDue rt row = true → ∀ row', refreshed rt w libraries row = some row' →
        isWatchedSince rt row' = true → left.id ≠ row.id := by
  have hid : ∀ {old new : QueueRow}, refreshed rt w libraries old = some new → new.id = old.id :=
    fun h => by rw [← refreshed_eq h]
  simp only [selectItemsToDelete, rescueWatched, QueueTable.mem_delete, decide_eq_false_iff_not,
    List.mem_map, List.mem_filter, mem_refreshWatchState, not_exists, not_and]
  refine and_congr_right fun _ => ⟨fun h row hrow hdue row' hrefreshed hwatched heq => ?_,
    fun h row' hrescued heq => ?_⟩
  · exact h row' ⟨⟨row, ⟨hrow, hdue⟩, hrefreshed⟩, hwatched⟩ ((hid hrefreshed).trans heq.symm)
  · obtain ⟨⟨row, ⟨hrow, hdue⟩, hrefreshed⟩, hwatched⟩ := hrescued
    exact h row hrow hdue row' hrefreshed hwatched (heq.symm.trans (hid hrefreshed))

end Select

end Hygie
