/-
**Seasons and series as one queue entry.**

A library may be set to delete whole seasons or whole series.  The scan then collects the eligible
episodes, groups them by season or by series, and inserts one consolidated entry for every group
that is complete: as many of its episodes are eligible as Sonarr's cached listing has files.  The
entry is a copy of the episode that is deleted last, with the identifiers of the group.

Dates are read by a function `parseIsoDt`; nothing depends on its values but the watch state that
the entry displays.

Main definitions:

* `SonarrCache` — the cached listing of all Sonarr servers;
* `DeletionUnit.key`, `groups`, `cachedTotal` — the groups, and the size each should have;
* `consolidatedEntry`, `consolidateAndInsert` — the entries that are inserted.

Main results:

* `mem_consolidateAndInsert` — where an inserted entry comes from;
* `covers_of_length_eq` — **the guard**: a group of distinct cached files, as many as are cached,
  is all of them.
-/

import Hygie.Schema
import Mathlib.Data.List.MinMax
import Mathlib.Data.String.Basic

set_option relaxedAutoImplicit false
set_option autoImplicit false

namespace Hygie

/-! ### Groups -/

/-- An entry of the cache that `build_sonarr_path_cache` makes. -/
structure SonarrCacheEntry where
  seriesId : Option ℤ
  seasonNumber : Option ℤ
  seriesTitle : String := ""
  posterUrl : String := ""
  deriving DecidableEq, Repr

/-- The cache: episode files by their path. -/
abbrev SonarrCache : Type := List (String × SonarrCacheEntry)

/-- The setting `deletion_unit` of a library. -/
inductive DeletionUnit
  | episode
  | season
  | series
  deriving DecidableEq, Repr

/-- A group: a series, and the season unless the group is the whole series. -/
abbrev GroupKey : Type := ℤ × Option ℤ

/-- The group of an eligible episode. -/
def DeletionUnit.key : DeletionUnit → QueueEntry → Option GroupKey
  | season, ep =>
      match ep.sonarrSeriesId, ep.seasonNumber with
      | some sid, some sn => some (sid, some sn)
      | _, _ => none
  | series, ep => ep.sonarrSeriesId.map (·, none)
  | episode, _ => none

/-- The episodes of one group. -/
def groupOf (unit : DeletionUnit) (eligible : List QueueEntry) (key : GroupKey) :
    List QueueEntry :=
  eligible.filter fun ep => unit.key ep == some key

/-- The groups, in the order of their first episodes. -/
def groups (unit : DeletionUnit) (eligible : List QueueEntry) :
    List (GroupKey × List QueueEntry) :=
  (eligible.filterMap unit.key).eraseDups.map fun key => (key, groupOf unit eligible key)

/-- Whether a cached file counts for a group: files without a season count for none. -/
def GroupKey.counts (key : GroupKey) (e : SonarrCacheEntry) : Bool :=
  e.seriesId == some key.1 && (if key.2.isSome then e.seasonNumber == key.2
    else e.seasonNumber.isSome)

/-- `season_totals` and `series_totals`. -/
def cachedTotal (cache : SonarrCache) (key : GroupKey) : ℕ :=
  (cache.filter fun p => key.counts p.2).length

/-! ### Entries -/

/-- `_group_watch_state`: the latest moment played and the highest count. -/
def groupWatchState (parseIsoDt : String → Option ℤ) (eps : List QueueEntry) :
    Option String × ℤ :=
  let state := eps.foldl (fun (best : Option (String × ℤ)) ep =>
    match truthyText ep.lastPlayed with
    | none => best
    | some raw =>
        match parseIsoDt raw with
        | none => best
        | some dt =>
            match best with
            | none => some (raw, dt)
            | some b => if b.2 < dt then some (raw, dt) else best) none
  (state.map Prod.fst, eps.foldl (fun n ep => max n ep.viewCount) 0)

/-- Title and poster of the series: for a season from the cached file of the anchor, for a series
from its first cached file. -/
def cachedSeries (cache : SonarrCache) (key : GroupKey) (anchor : QueueEntry) :
    Option SonarrCacheEntry :=
  if key.2.isSome then cache.lookup anchor.filePath
  else (cache.find? fun p => p.2.seriesId == some key.1).map Prod.snd

/-- The synthetic identifier of a group. -/
def groupEmbyId : GroupKey → String
  | (sid, some sn) => s!"sonarr-season:{sid}:{sn}"
  | (sid, none) => s!"sonarr-series:{sid}"

/-- The title of a group. -/
def groupTitle (seriesTitle : String) : GroupKey → String
  | (_, some sn) => s!"{seriesTitle} — Saison {sn}"
  | (_, none) => seriesTitle

/-- The consolidated entry: the episode that is deleted last, under the identifiers of the group. -/
def consolidatedEntry (parseIsoDt : String → Option ℤ) (cache : SonarrCache) (key : GroupKey)
    (eps : List QueueEntry) : Option QueueEntry :=
  (eps.argmax (·.deleteAt)).map fun anchor =>
    let cached := cachedSeries cache key anchor
    let seriesTitle := (cached.map SonarrCacheEntry.seriesTitle).getD anchor.title
    let poster := (cached.map SonarrCacheEntry.posterUrl).getD ""
    let watched := groupWatchState parseIsoDt eps
    { anchor with
      embyId := groupEmbyId key
      title := groupTitle seriesTitle key
      sonarrId := none
      sonarrSeriesId := some key.1
      seasonNumber := key.2
      posterUrl := if poster = "" then anchor.posterUrl else poster
      lastPlayed := watched.1
      viewCount := watched.2 }

/-- The entry of a group, if it is complete: strict equality, since more eligible episodes than
known files are an anomaly. -/
def completeEntry (parseIsoDt : String → Option ℤ) (cache : SonarrCache)
    (group : GroupKey × List QueueEntry) : Option QueueEntry :=
  let total := cachedTotal cache group.1
  if 0 < total ∧ group.2.length = total then consolidatedEntry parseIsoDt cache group.1 group.2
  else none

/-- Insertion of the entries that are not queued yet; an inserted one is queued from then on. -/
def insertNew : Option (List String) → List QueueEntry → List QueueEntry
  | _, [] => []
  | none, e :: es => e :: insertNew none es
  | some queuedIds, e :: es =>
      if e.embyId ∈ queuedIds then insertNew (some queuedIds) es
      else e :: insertNew (some (e.embyId :: queuedIds)) es

/-- `_consolidate_and_insert`: the entries inserted. -/
def consolidateAndInsert (parseIsoDt : String → Option ℤ) (eligible : List QueueEntry)
    (cache : SonarrCache) (unit : DeletionUnit) (queuedIds : Option (List String)) :
    List QueueEntry :=
  insertNew queuedIds ((groups unit eligible).filterMap (completeEntry parseIsoDt cache))

/-! ### Where an entry comes from -/

variable {parseIsoDt : String → Option ℤ} {eligible : List QueueEntry} {cache : SonarrCache}
  {unit : DeletionUnit} {queuedIds : Option (List String)} {row : QueueEntry}

theorem mem_of_mem_insertNew {es : List QueueEntry} (h : row ∈ insertNew queuedIds es) :
    row ∈ es := by
  induction es generalizing queuedIds with
  | nil => exact h
  | cons e es ih =>
      cases queuedIds with
      | none =>
          rcases List.mem_cons.1 h with rfl | h
          · exact List.mem_cons_self ..
          · exact List.mem_cons_of_mem _ (ih h)
      | some ids =>
          simp only [insertNew] at h
          split_ifs at h with hqueued
          · exact List.mem_cons_of_mem _ (ih h)
          · rcases List.mem_cons.1 h with rfl | h
            · exact List.mem_cons_self ..
            · exact List.mem_cons_of_mem _ (ih h)

/-- An inserted entry is the entry of a complete group. -/
theorem consolidatedEntry_of_mem
    (h : row ∈ consolidateAndInsert parseIsoDt eligible cache unit queuedIds) :
    ∃ key, (groupOf unit eligible key).length = cachedTotal cache key ∧
      consolidatedEntry parseIsoDt cache key (groupOf unit eligible key) = some row := by
  obtain ⟨⟨key, eps⟩, hgroup, hentry⟩ := List.mem_filterMap.1 (mem_of_mem_insertNew h)
  obtain ⟨_, -, hkey⟩ := List.mem_map.1 hgroup
  cases hkey
  simp only [completeEntry] at hentry
  split_ifs at hentry with hcomplete
  exact ⟨key, hcomplete.2, hentry⟩

/-- **An inserted entry** is the copy of an episode of a complete group. -/
theorem mem_consolidateAndInsert
    (h : row ∈ consolidateAndInsert parseIsoDt eligible cache unit queuedIds) :
    ∃ key, (groupOf unit eligible key).length = cachedTotal cache key ∧
      row.sonarrId = none ∧ row.sonarrSeriesId = some key.1 ∧ row.seasonNumber = key.2 ∧
      ∃ anchor ∈ groupOf unit eligible key, row.mediaType = anchor.mediaType ∧
        row.filePath = anchor.filePath ∧ row.arrServerUrl = anchor.arrServerUrl := by
  obtain ⟨key, hcomplete, hentry⟩ := consolidatedEntry_of_mem h
  obtain ⟨anchor, hanchor, rfl⟩ := Option.map_eq_some_iff.1 hentry
  exact ⟨key, hcomplete, rfl, rfl, rfl, anchor, List.argmax_mem hanchor, rfl, rfl, rfl⟩

/-- **The guard.**  A group of distinct files that are all cached for it, as many as are cached for
it, is all of them. -/
theorem covers_of_length_eq {key : GroupKey} {eps : List QueueEntry}
    (hdistinct : (eps.map QueueEntry.filePath).Nodup)
    (hcached : ∀ ep ∈ eps, ∃ e, (ep.filePath, e) ∈ cache ∧ key.counts e = true)
    (hlength : eps.length = cachedTotal cache key) {p : String × SonarrCacheEntry}
    (hp : p ∈ cache) (hcounts : key.counts p.2 = true) : ∃ ep ∈ eps, ep.filePath = p.1 := by
  have hsubset : eps.map QueueEntry.filePath ⊆
      (cache.filter fun p => key.counts p.2).map Prod.fst := by
    intro path hpath
    obtain ⟨ep, hep, rfl⟩ := List.mem_map.1 hpath
    obtain ⟨e, he, hcount⟩ := hcached ep hep
    exact List.mem_map.2 ⟨_, List.mem_filter.2 ⟨he, hcount⟩, rfl⟩
  have hperm := (hdistinct.subperm hsubset).perm_of_length_le
    (by simpa [cachedTotal] using hlength.ge)
  have hmem : p.1 ∈ eps.map QueueEntry.filePath :=
    hperm.mem_iff.2 (List.mem_map_of_mem (List.mem_filter.2 ⟨hp, hcounts⟩))
  exact List.mem_map.1 hmem

end Hygie
