/-
**What the scan of a Plex library mirrors.**

A Plex item whose TMDB identifier is pending for deletion elsewhere is put on the queue without
asking a rule.  The two are compared by a key that tells films from television and no more: the rows
of an episode, of a season and of a series carry the identifier of the series and have the same key.

Main definitions:

* `tmdbKey`, `PlexScanState`, `plexItemToEntry` — the scan of one item;
* `loadScanState` — what the scan reads of the database before;
* `isMirrored` — the item is put on the queue because of its key;
* `StandsForSeries`, `MirrorsSeries` — a row for a whole series, and the law.

Main results:

* `plexItemToEntry_isSome_iff` — when an item is put on the queue;
* `mirrorsSeries_iff` — **exactly when only whole series are mirrored**.
-/

import Hygie.ExpertRules
import Hygie.Schema

set_option relaxedAutoImplicit false
set_option autoImplicit false

namespace Hygie

/-! ### One item -/

/-- What the Plex client returns for an item of a library. -/
structure PlexItem where
  plexId : String
  title : String
  mediaType : String
  tmdbId : String
  posterUrl : String := ""
  seasonNumber : Option ℤ := none
  addedAt : Option String := none
  lastViewedAt : Option String := none
  viewCount : ℤ := 0
  rating : ℚ := 0
  deriving DecidableEq, Repr

/-- An entry of the Seerr cache. -/
structure SeerrRequest where
  seerrId : Option ℤ
  userId : Option ℤ
  username : String := ""
  requestUrl : String := ""
  deriving DecidableEq, Repr

/-- A row of `ignored_media`. -/
structure IgnoredRow where
  embyId : String
  libraryId : String
  tmdbId : String
  mediaType : String
  deriving DecidableEq, Repr

/-- The runtime the scan works with: `str.lower`, `parse_iso_dt`, the moment, and how a moment is
written. -/
structure Runtime where
  lower : String → String := id
  parseIsoDt : String → Option Instant := fun _ => none
  now : Instant := 0
  isoformat : Instant → String := fun _ => ""

/-- `_PlexScanState`. -/
structure PlexScanState where
  queuedIds : List String
  ignoredIds : List String
  ignoredTmdb : List String
  queuedTmdb : List String
  graceDays : ℤ
  libId : String
  libName : String
  seerrCache : String → Option SeerrRequest

section Scan

variable (rt : Runtime)

/-- `_tmdb_key`: the rows of an episode, a season and a series share their key. -/
def tmdbKey (tmdbId mediaType : String) : String :=
  let t := rt.lower mediaType
  let keyPrefix :=
    if t = "movie" then "movie"
    else if t = "series" ∨ t = "episode" ∨ t = "season" then "tv"
    else t
  keyPrefix ++ "_" ++ tmdbId

/-- The type of an item; `item.get("media_type") or "movie"`. -/
def PlexItem.type (item : PlexItem) : String :=
  if item.mediaType = "" then "movie" else item.mediaType

/-- The key of an item, empty without an identifier. -/
def PlexItem.key (item : PlexItem) : String :=
  if item.tmdbId = "" then "" else tmdbKey rt item.tmdbId item.type

/-- What a rule sees of an item. -/
def PlexItem.facts (item : PlexItem) : PlexFacts where
  addedAt := item.addedAt.bind rt.parseIsoDt
  lastViewedAt := item.lastViewedAt.bind rt.parseIsoDt
  viewCount := item.viewCount
  rating := item.rating
  mediaType := item.mediaType

/-- `_grace_for_item`. -/
def graceForItem (rules : List ExpertRule) (item : PlexItem) (key : String) (st : PlexScanState) :
    Bool × ℤ :=
  if key ≠ "" ∧ key ∈ st.queuedTmdb then (true, st.graceDays)
  else
    let (action, ruleGrace) :=
      evaluateExpertRules rules (buildPlexItemData rt.now (item.facts rt)) (some st.libId)
    (action = some .queue, ruleGrace)

/-- `_build_plex_entry`. -/
def buildPlexEntry (item : PlexItem) (st : PlexScanState) (effectiveGrace : ℤ) : QueueEntry :=
  let seerr := if item.tmdbId = "" then none else st.seerrCache item.tmdbId
  { embyId := item.plexId
    title := item.title
    mediaType := item.type
    libraryId := st.libId
    libraryName := st.libName
    filePath := ""
    detectedAt := rt.isoformat rt.now
    deleteAt := rt.isoformat (rt.now + effectiveGrace * 86400000000)
    posterUrl := item.posterUrl
    tmdbId := item.tmdbId
    addedDate := item.addedAt
    lastPlayed := item.lastViewedAt
    viewCount := item.viewCount
    seerrId := seerr.bind (·.seerrId)
    seerrUserId := seerr.bind (·.userId)
    seerrUsername := (seerr.map (·.username)).getD ""
    seerrRequestUrl := (seerr.map (·.requestUrl)).getD ""
    seasonNumber := item.seasonNumber }

/-- The gates before the mirror and the rules: no identifier, queued or ignored on this server, or
ignored on some server. -/
def isSkipped (item : PlexItem) (st : PlexScanState) : Bool :=
  item.plexId = "" || item.plexId ∈ st.queuedIds || item.plexId ∈ st.ignoredIds ||
    (item.key rt ≠ "" && item.key rt ∈ st.ignoredTmdb)

/-- `_plex_item_to_entry`. -/
def plexItemToEntry (rules : List ExpertRule) (item : PlexItem) (st : PlexScanState) :
    Option QueueEntry :=
  if isSkipped rt item st then none
  else
    let (shouldQueue, effectiveGrace) := graceForItem rt rules item (item.key rt) st
    if shouldQueue then some (buildPlexEntry rt item st effectiveGrace) else none

/-! ### The state of the scan -/

/-- `_tmdb_key_set`. -/
def tmdbKeySet (rows : List (String × String)) : List String :=
  (rows.filter fun row => row.1 ≠ "").map fun row => tmdbKey rt row.1 row.2

/-- Whether a library is on a server, as the joins with `libraries` see it. -/
def onServer (libraries : List Library) (serverId libraryId : String) : Bool :=
  libraries.any fun lib => lib.id = libraryId && lib.serverId = some serverId

/-- `_load_scan_state`: what is queued and ignored on this server, and the keys of what is ignored
and pending anywhere. -/
def loadScanState (queue : List QueueRow) (ignored : List IgnoredRow) (libraries : List Library)
    (serverId : String) (graceDays : ℤ) (libId libName : String)
    (seerrCache : String → Option SeerrRequest) : PlexScanState where
  queuedIds := (queue.filter fun row => onServer libraries serverId row.libraryId).map (·.embyId)
  ignoredIds := (ignored.filter fun row => onServer libraries serverId row.libraryId).map (·.embyId)
  ignoredTmdb := tmdbKeySet rt (ignored.map fun row => (row.tmdbId, row.mediaType))
  queuedTmdb := tmdbKeySet rt
    ((queue.filter (·.status = .pending)).map fun row => (row.tmdbId, row.mediaType))
  graceDays := graceDays
  libId := libId
  libName := libName
  seerrCache := seerrCache

/-! ### Mirroring -/

/-- The item is put on the queue because its key is pending. -/
def isMirrored (item : PlexItem) (st : PlexScanState) : Bool :=
  !isSkipped rt item st && item.key rt ≠ "" && item.key rt ∈ st.queuedTmdb

/-- A row that stands for a whole series: a consolidated row without a season, or a series. -/
def StandsForSeries (row : QueueRow) : Prop :=
  isConsolidatedRow row.toQueueEntry = true ∧ row.seasonNumber = none ∨
    rt.lower row.mediaType = "series"

/-- A series item is mirrored only if the same whole series is pending on another server. -/
def MirrorsSeries (queue : List QueueRow) (libraries : List Library) (serverId : String)
    (item : PlexItem) (st : PlexScanState) : Prop :=
  rt.lower item.type = "series" → isMirrored rt item st = true →
    ∃ row ∈ queue, row.status = .pending ∧ row.tmdbId = item.tmdbId ∧ StandsForSeries rt row ∧
      ∃ lib ∈ libraries, lib.id = row.libraryId ∧ lib.serverId ≠ some serverId

end Scan

section Laws

variable {rt : Runtime} {rules : List ExpertRule} {item : PlexItem} {st : PlexScanState}

/-- **When an item is put on the queue**: it is mirrored, or a rule says so. -/
theorem plexItemToEntry_isSome_iff :
    (plexItemToEntry rt rules item st).isSome = true ↔
      isMirrored rt item st = true ∨
        isSkipped rt item st = false ∧
          (evaluateExpertRules rules (buildPlexItemData rt.now (item.facts rt))
            (some st.libId)).1 = some .queue := by
  simp only [plexItemToEntry, isMirrored, graceForItem]
  cases hskipped : isSkipped rt item st with
  | true => simp
  | false => split_ifs with hkey <;> simp_all

theorem tmdbKey_ne_empty {tmdbId mediaType : String} : tmdbKey rt tmdbId mediaType ≠ "" := by
  simp [tmdbKey]

theorem key_ne_empty_iff : item.key rt ≠ "" ↔ item.tmdbId ≠ "" := by
  by_cases htmdb : item.tmdbId = "" <;> simp [PlexItem.key, htmdb, tmdbKey_ne_empty]

variable {queue : List QueueRow} {ignored : List IgnoredRow} {libraries : List Library}
  {serverId libId libName : String} {graceDays : ℤ} {seerrCache : String → Option SeerrRequest}

/-- The keys that are pending anywhere. -/
theorem mem_queuedTmdb {key : String} :
    key ∈ (loadScanState rt queue ignored libraries serverId graceDays libId libName
        seerrCache).queuedTmdb ↔
      ∃ row ∈ queue, row.status = .pending ∧ row.tmdbId ≠ "" ∧
        tmdbKey rt row.tmdbId row.mediaType = key := by
  simp only [loadScanState, tmdbKeySet, List.mem_map, List.mem_filter, decide_eq_true_eq]
  constructor
  · rintro ⟨_, ⟨⟨row, ⟨hrow, hpending⟩, rfl⟩, htmdb⟩, hkey⟩
    exact ⟨row, hrow, hpending, htmdb, hkey⟩
  · rintro ⟨row, hrow, hpending, htmdb, hkey⟩
    exact ⟨_, ⟨⟨row, ⟨hrow, hpending⟩, rfl⟩, htmdb⟩, hkey⟩

/-- **Exactly when only whole series are mirrored**: beside each pending row that has the key of a
series item, unless the item is skipped, there is one for the whole series on another server. -/
theorem mirrorsSeries_iff :
    MirrorsSeries rt queue libraries serverId item
        (loadScanState rt queue ignored libraries serverId graceDays libId libName seerrCache) ↔
      (rt.lower item.type = "series" → item.tmdbId ≠ "" →
        isSkipped rt item
          (loadScanState rt queue ignored libraries serverId graceDays libId libName seerrCache) =
            false →
        ∀ mate ∈ queue, mate.status = .pending → mate.tmdbId ≠ "" →
          tmdbKey rt mate.tmdbId mate.mediaType = tmdbKey rt item.tmdbId item.type →
          ∃ row ∈ queue, row.status = .pending ∧ row.tmdbId = item.tmdbId ∧
            StandsForSeries rt row ∧
              ∃ lib ∈ libraries, lib.id = row.libraryId ∧ lib.serverId ≠ some serverId) := by
  have hkey : item.tmdbId ≠ "" → item.key rt = tmdbKey rt item.tmdbId item.type :=
    fun htmdb => if_neg htmdb
  constructor
  · intro h hseries htmdb hskipped mate hmate hpending hmateTmdb hsame
    refine h hseries ?_
    simp only [isMirrored, hskipped, hkey htmdb, ne_eq, tmdbKey_ne_empty, not_false_eq_true,
      decide_true, Bool.not_false, Bool.and_self, Bool.true_and, decide_eq_true_eq]
    exact mem_queuedTmdb.2 ⟨mate, hmate, hpending, hmateTmdb, hsame⟩
  · intro h hseries hmirrored
    simp only [isMirrored, Bool.and_eq_true, Bool.not_eq_true', decide_eq_true_eq] at hmirrored
    obtain ⟨⟨hskipped, hnonempty⟩, hqueued⟩ := hmirrored
    have htmdb := key_ne_empty_iff.1 hnonempty
    obtain ⟨mate, hmate, hpending, hmateTmdb, hsame⟩ := mem_queuedTmdb.1 hqueued
    exact h hseries htmdb hskipped mate hmate hpending hmateTmdb (hsame.trans (hkey htmdb))

/-- A single episode is pending on an Emby server, and the Plex scan queues the whole series. -/
theorem not_mirrorsSeries_episode :
    ¬ ∀ (rt : Runtime) (queue : List QueueRow) (ignored : List IgnoredRow)
      (libraries : List Library) (serverId : String) (item : PlexItem),
      MirrorsSeries rt queue libraries serverId item
        (loadScanState rt queue ignored libraries serverId 7 "plexShows" "Shows"
          fun _ => none) := by
  intro hclaim
  have hseries := hclaim { lower := fun s => if s = "Episode" then "episode" else s }
    [{ id := 7, embyId := "42", title := "Winter", mediaType := "Episode", libraryId := "shows"
       libraryName := "Shows", filePath := "/shows/A/S01/E01.mkv", tmdbId := "1399"
       sonarrId := some 3
       sonarrSeriesId := some 1, seasonNumber := some 1
       detectedAt := "2025-01-01T00:00:00", deleteAt := "2025-02-01T00:00:00" }]
    [] [{ id := "shows", serverId := some "0" }, { id := "plexShows", serverId := some "1" }] "1"
    { plexId := "901", title := "A", mediaType := "series", tmdbId := "1399" } (by decide)
    (by decide)
  obtain ⟨row, hrow, -, -, hstands, -⟩ := hseries
  obtain rfl := List.mem_singleton.1 hrow
  revert hstands
  simp [StandsForSeries, isConsolidatedRow, truthyId]

end Laws

end Hygie
