/-
**What the counts of a group say.**

A group is complete when as many of its episodes are eligible as Sonarr's cache has files for it.
The counts omit the server, the files without a season, and that a page of a scan may list an
episode twice. So a group can be complete by its counts and lack a file: the duplicate of one
episode, or a file of another server, stands for the one that is missing.

Main definitions:

* `buildSonarrPathCache` — the cache, from what the servers answer;
* `ArrLookups.resolveArrIds`, `FromCache` — what an eligible entry has from the cache;
* `SoundFor` — the law: an inserted row stands for files that are all eligible, on one server;
* `repeats`, `seasonless`, `elsewhere` — what makes the counts differ from the files.

Main results:

* `nodup_buildSonarrPathCache` — the cache has every path once;
* `fromCache_of_collectItem` — the scan collects what the cache says;
* `length_held` — **the counts of a group and its files**;
* `soundFor_of_distinct` — a cache and a list without the three have the law;
* `forall_soundFor_iff` — **exactly when the law holds**.
-/

import Hygie.ArrShared
import Hygie.GroupSums

set_option relaxedAutoImplicit false
set_option autoImplicit false

namespace Hygie

open PyText

/-! ### The cache of all servers -/

/-- An image of a series. -/
structure ServedImage where
  coverType : String
  remoteUrl : String := ""

/-- `_extract_poster_url`. -/
def extractPosterUrl (images : List ServedImage) : String :=
  let poster := images.find? fun img => img.coverType = "poster" && startsWith img.remoteUrl "http"
  (poster.map (·.remoteUrl)).getD ""

/-- An episode file as Sonarr lists it. -/
structure ServedFile where
  id : Option ℤ
  path : String
  seasonNumber : Option ℤ

/-- A series as Sonarr lists it, and the answer to the request for its files: none for another
status than 200, and nothing at all for an exception. -/
structure ServedSeries where
  id : Option ℤ
  path : String
  title : String := ""
  images : List ServedImage := []
  files : Option (List ServedFile)

/-- A server, and its answer to the request for the series. -/
structure ServedSonarr where
  srv : ArrServer
  series : Option (List ServedSeries)

/-- An entry of the cache, with the file's identifier and server. -/
structure CachedFile extends SonarrCacheEntry where
  efId : Option ℤ
  srvUrl : String
  srvKey : String := ""
  deriving DecidableEq, Repr

/-- The cache with the servers. -/
abbrev ServerCache : Type := List (String × CachedFile)

/-- What the consolidation reads of the cache. -/
def ServerCache.listing (cache : ServerCache) : SonarrCache :=
  cache.map fun p => (p.1, p.2.toSonarrCacheEntry)

/-- `_process_series`: nothing for a series without a folder, or a file without a path. -/
def processSeries (srv : ArrServer) (series : ServedSeries) : Option ServerCache :=
  if rstripSlash series.path = "" then some []
  else
    series.files.map fun files =>
      (files.filter (·.path ≠ "")).map fun ef => (ef.path,
        { efId := ef.id
          seriesId := series.id
          seasonNumber := ef.seasonNumber
          seriesTitle := series.title
          posterUrl := extractPosterUrl series.images
          srvUrl := srv.base
          srvKey := srv.apiKey })

/-- What a server adds: an exception for one of its series leaves out all of them. -/
def ServedSonarr.entries (s : ServedSonarr) : ServerCache :=
  ((s.series.bind fun series => series.mapM (processSeries s.srv)).map List.flatten).getD []

/-- `cache[ep_path] = entry`. -/
def setCached (cache : ServerCache) (p : String × CachedFile) : ServerCache :=
  if p.1 ∈ cache.map Prod.fst then cache.map fun old => if old.1 = p.1 then p else old
  else cache ++ [p]

/-- `build_sonarr_path_cache`. -/
def buildSonarrPathCache (servers : List ServedSonarr) : ServerCache :=
  (servers.flatMap ServedSonarr.entries).foldl setCached []

section Cache

variable {cache : ServerCache} {p : String × CachedFile} {servers : List ServedSonarr}

theorem keys_setCached :
    (setCached cache p).map Prod.fst =
      if p.1 ∈ cache.map Prod.fst then cache.map Prod.fst else cache.map Prod.fst ++ [p.1] := by
  rw [setCached]
  split_ifs
  · rw [List.map_map]
    refine List.map_congr_left fun old _ => ?_
    rw [Function.comp_apply]
    split_ifs with heq
    · exact heq.symm
    · rfl
  · rw [List.map_append, List.map_cons, List.map_nil]

theorem nodup_setCached (h : (cache.map Prod.fst).Nodup) :
    ((setCached cache p).map Prod.fst).Nodup := by
  rw [keys_setCached]
  split_ifs with hmem
  · exact h
  · rw [← List.concat_eq_append]
    exact h.concat hmem

/-- **The cache has every path once.** -/
theorem nodup_buildSonarrPathCache : ((buildSonarrPathCache servers).map Prod.fst).Nodup := by
  have hfold : ∀ entries cache : ServerCache, (cache.map Prod.fst).Nodup →
      ((entries.foldl setCached cache).map Prod.fst).Nodup := by
    intro entries
    induction entries with
    | nil => exact fun _ h => h
    | cons p entries ih => exact fun cache h => ih _ (nodup_setCached h)
  exact hfold _ [] List.nodup_nil

theorem mem_of_lookup {path : String} {e : CachedFile} (h : cache.lookup path = some e) :
    (path, e) ∈ cache := by
  obtain ⟨before, after, rfl, _⟩ := List.lookup_eq_some_iff.1 h
  exact List.mem_append_right _ (List.mem_cons_self ..)

end Cache

/-! ### What an eligible entry has from the cache -/

/-- The caches of a scan, the search on all Sonarr servers, and the posters. -/
structure ArrLookups where
  radarr : String → Option (ℤ × String)
  sonarr : ServerCache
  search : String → Option (ℤ × String)
  poster : ScannedItem → ItemDetails → String

/-- The identifiers of a cached file. -/
def CachedFile.details (e : CachedFile) : ItemDetails where
  sonarrId := e.efId
  sonarrSeriesId := e.seriesId
  seasonNumber := e.seasonNumber
  arrServerUrl := some e.srvUrl

namespace ArrLookups

variable (l : ArrLookups) (item : ScannedItem)

/-- The identifiers of a movie. -/
def movie : ItemDetails where
  radarrId := (l.radarr item.path).map Prod.fst
  arrServerUrl := (l.radarr item.path).map Prod.snd

/-- `_resolve_arr_ids`: what the cache does not have is searched. -/
def resolveArrIds : ItemDetails :=
  if item.type = "Movie" then l.movie item
  else
    match l.sonarr.lookup item.path with
    | some e => e.details
    | none =>
        { sonarrId := (l.search item.path).map Prod.fst
          arrServerUrl := (l.search item.path).map Prod.snd }

/-- The identifiers that `_evaluate_expert_rules_fallback` reads from the caches. -/
def expertArrIds : ItemDetails :=
  if item.type = "" ∨ item.type = "Movie" then l.movie item
  else ((l.sonarr.lookup item.path).map CachedFile.details).getD {}

/-- Some identifiers, with the poster. -/
def withPoster (ids : ItemDetails) : ItemDetails := { ids with posterUrl := l.poster item ids }

end ArrLookups

/-- An entry with a series has it from the cache, together with its season and its server. -/
def FromCache (cache : ServerCache) (ep : QueueEntry) : Prop :=
  ep.sonarrSeriesId = none ∨
    ∃ e, cache.lookup ep.filePath = some e ∧ ep.sonarrSeriesId = e.seriesId ∧
      ep.seasonNumber = e.seasonNumber ∧ ep.arrServerUrl = some e.srvUrl

section Scan

variable {rt : Runtime} {requests : RequestCache} {sc : LibraryScan} {l : ArrLookups}
  {item : ScannedItem} {entry : QueueEntry}

theorem fromCache_details {ep : QueueEntry} {e : CachedFile}
    (hlookup : l.sonarr.lookup ep.filePath = some e)
    (hseries : ep.sonarrSeriesId = e.details.sonarrSeriesId)
    (hseason : ep.seasonNumber = e.details.seasonNumber)
    (hserver : ep.arrServerUrl = e.details.arrServerUrl) : FromCache l.sonarr ep :=
  .inr ⟨e, hlookup, hseries, hseason, hserver⟩

/-- **The scan collects what the cache says.** -/
theorem fromCache_of_collectItem
    (hdetails : ∀ item, sc.details item = l.withPoster item (l.resolveArrIds item))
    (hcached : ∀ item, sc.cachedDetails item = l.withPoster item (l.expertArrIds item))
    (h : collectItem rt requests sc item = some entry) : FromCache l.sonarr entry := by
  obtain ⟨details, mediaType, graceDays, added, hdetail | hdetail, rfl⟩ := exists_buildEntry h
  · rw [hdetail, hdetails, ArrLookups.withPoster, ArrLookups.resolveArrIds]
    split_ifs
    · exact .inl rfl
    · cases hlookup : l.sonarr.lookup item.path with
      | none => exact .inl rfl
      | some e => exact fromCache_details hlookup rfl rfl rfl
  · rw [hdetail, hcached, ArrLookups.withPoster, ArrLookups.expertArrIds]
    split_ifs
    · exact .inl rfl
    · cases hlookup : l.sonarr.lookup item.path with
      | none => exact .inl rfl
      | some e => exact fromCache_details hlookup rfl rfl rfl

end Scan

/-! ### The counts and the files -/

/-- A cached file is one of the files that a row stands for: those of its series, or of its season,
on its server. -/
def CachedFile.HeldFor (e : CachedFile) (row : QueueEntry) : Prop :=
  e.seriesId = row.sonarrSeriesId ∧ row.arrServerUrl = some e.srvUrl ∧
    (row.seasonNumber = none ∨ e.seasonNumber = row.seasonNumber)

/-- **The law** of an inserted row: all its files are eligible, and no entry of another server was
counted for it. -/
structure SoundFor (cache : ServerCache) (unit : DeletionUnit) (eligible : List QueueEntry)
    (row : QueueEntry) : Prop where
  covered : ∀ p ∈ cache, p.2.HeldFor row → ∃ ep ∈ eligible, ep.filePath = p.1
  sameServer : ∀ ep ∈ eligible, unit.key ep = unit.key row → ep.arrServerUrl = row.arrServerUrl

/-- The files of a group on a server. -/
def held (cache : ServerCache) (key : GroupKey) (url : String) : ServerCache :=
  cache.filter fun p => p.2.seriesId = some key.1 ∧ p.2.srvUrl = url ∧
    (key.2 = none ∨ p.2.seasonNumber = key.2)

/-- The files of other servers that count for a group. -/
def elsewhere (cache : ServerCache) (key : GroupKey) (url : String) : ℕ :=
  (cache.filter fun p => key.counts p.2.toSonarrCacheEntry ∧ p.2.srvUrl ≠ url).length

/-- The files of a series on a server that count for nothing, for want of a season. -/
def seasonless (cache : ServerCache) (key : GroupKey) (url : String) : ℕ :=
  (cache.filter fun p => key.2 = none ∧ p.2.seriesId = some key.1 ∧ p.2.srvUrl = url ∧
    p.2.seasonNumber = none).length

/-- The paths of some entries, each once. -/
def distinctPaths (eps : List QueueEntry) : List String := (eps.map (·.filePath)).dedup

/-- How many entries have the path of another one. -/
def repeats (eps : List QueueEntry) : ℕ := eps.length - (distinctPaths eps).length

/-- How many files of a group are eligible under no series: the media server takes them for movies.
-/
def ungrouped (cache : ServerCache) (unit : DeletionUnit) (eligible : List QueueEntry)
    (key : GroupKey)
    (url : String) : ℕ :=
  ((held cache key url).filter fun p => p.1 ∈ eligible.map (·.filePath) ∧
    p.1 ∉ distinctPaths (groupOf unit eligible key)).length

/-- A group is inserted: it is complete by its counts, and not queued. -/
def Inserts (cache : ServerCache) (unit : DeletionUnit) (eligible : List QueueEntry)
    (queuedIds : Option (List String)) (key : GroupKey) : Prop :=
  0 < cachedTotal cache.listing key ∧
    (groupOf unit eligible key).length = cachedTotal cache.listing key ∧
    groupEmbyId key ∉ queuedIds.getD []

section Counts

variable {cache : ServerCache} {key : GroupKey} {url : String} {eps : List QueueEntry}
  {unit : DeletionUnit} {eligible : List QueueEntry} {ep : QueueEntry}

theorem cachedTotal_listing :
    cachedTotal cache.listing key =
      (cache.filter fun p => key.counts p.2.toSonarrCacheEntry).length := by
  rw [cachedTotal, ServerCache.listing, List.filter_map, List.length_map]
  rfl

/-- Counts that agree on every element agree. -/
theorem countP_add_countP {α : Type*} {f g f' g' : α → Bool} {l : List α}
    (h : ∀ a ∈ l, (f a).toNat + (g a).toNat = (f' a).toNat + (g' a).toNat) :
    l.countP f + l.countP g = l.countP f' + l.countP g' := by
  induction l with
  | nil => rfl
  | cons a l ih =>
      have hone : ∀ b : Bool, (if b = true then 1 else 0) = b.toNat := fun b => by cases b <;> rfl
      have ha := h a (List.mem_cons_self ..)
      have hl := ih fun b hb => h b (List.mem_cons_of_mem _ hb)
      simp only [List.countP_cons, hone]
      omega

/-- **The counts of a group and its files**: the total counts the files of other servers, and leaves
out the files without a season. -/
theorem length_held :
    (held cache key url).length + elsewhere cache key url =
      cachedTotal cache.listing key + seasonless cache key url := by
  rw [cachedTotal_listing, held, elsewhere, seasonless]
  simp only [← List.countP_eq_length_filter]
  refine countP_add_countP fun p _ => ?_
  obtain ⟨sid, season⟩ := key
  by_cases hsid : p.2.seriesId = some sid
  · by_cases hurl : p.2.srvUrl = url
    · cases season with
      | none => cases hseason : p.2.seasonNumber <;> simp [GroupKey.counts, hsid, hurl, hseason]
      | some sn =>
          by_cases hseason : p.2.seasonNumber = some sn <;>
            simp [GroupKey.counts, beq_eq_decide, hsid, hurl, hseason]
    · cases season with
      | none => cases hseason : p.2.seasonNumber <;> simp [GroupKey.counts, hsid, hurl, hseason]
      | some sn =>
          by_cases hseason : p.2.seasonNumber = some sn <;>
            simp [GroupKey.counts, beq_eq_decide, hsid, hurl, hseason]
  · simp [GroupKey.counts, beq_eq_decide, hsid]

theorem repeats_add : (distinctPaths eps).length + repeats eps = eps.length := by
  have hle : (distinctPaths eps).length ≤ eps.length := by
    rw [distinctPaths, ← List.length_map (fun ep : QueueEntry => ep.filePath)]
    exact (List.dedup_sublist _).length_le
  rw [repeats, Nat.add_sub_cancel' hle]

theorem mem_distinctPaths {path : String} :
    path ∈ distinctPaths eps ↔ ∃ ep ∈ eps, ep.filePath = path := by
  rw [distinctPaths, List.mem_dedup, List.mem_map]

/-- Some elements of a list, each once, are all of them when they are as many. -/
theorem subset_iff_length_eq {α : Type*} {l m : List α} (hl : l.Nodup) (hm : m.Nodup) (h : l ⊆ m) :
    m ⊆ l ↔ l.length = m.length := by
  constructor
  · intro hsubset
    exact le_antisymm (hl.subperm h).length_le (hm.subperm hsubset).length_le
  · intro hlength
    have hperm := (hl.subperm h).perm_of_length_le hlength.ge
    exact hperm.symm.subset

/-- What the key of an entry says. -/
theorem key_eq_some_iff :
    unit.key ep = some key ↔
      ep.sonarrSeriesId = some key.1 ∧
        (unit = .series ∧ key.2 = none ∨ unit = .season ∧ key.2.isSome ∧
          ep.seasonNumber = key.2) := by
  obtain ⟨sid, season⟩ := key
  cases unit with
  | episode => simp [DeletionUnit.key]
  | season =>
      cases hseries : ep.sonarrSeriesId <;> cases hseason : ep.seasonNumber <;>
        cases season <;> simp [DeletionUnit.key, hseries, hseason]
  | series =>
      cases hseries : ep.sonarrSeriesId <;> cases season <;> simp [DeletionUnit.key, hseries]

/-- A counted entry of a server has a file of the group there. -/
theorem exists_mem_held (hfrom : FromCache cache ep) (hkey : unit.key ep = some key)
    (hurl : ep.arrServerUrl = some url) : ∃ e, (ep.filePath, e) ∈ held cache key url := by
  obtain ⟨hseries, hunit⟩ := key_eq_some_iff.1 hkey
  rcases hfrom with hnone | ⟨e, hlookup, hsid, hseason, hserver⟩
  · rw [hseries] at hnone
    cases hnone
  · refine ⟨e, List.mem_filter.2 ⟨mem_of_lookup hlookup, ?_⟩⟩
    rw [hserver, Option.some.injEq] at hurl
    rw [hseries] at hsid
    rw [decide_eq_true_eq]
    refine ⟨hsid.symm, hurl, ?_⟩
    rcases hunit with ⟨_, hnone⟩ | ⟨_, _, hsn⟩
    · exact .inl hnone
    · exact .inr (hseason.symm.trans hsn)

/-- A counted entry has a file of its series in the cache, on the server that it names. -/
theorem exists_cached_of_mem (hfrom : ∀ ep ∈ eligible, FromCache cache ep)
    (hep : ep ∈ groupOf unit eligible key) :
    ∃ url e, (ep.filePath, e) ∈ cache ∧ e.seriesId = some key.1 ∧ ep.arrServerUrl = some url ∧
      e.srvUrl = url := by
  obtain ⟨hmem, hkey⟩ := List.mem_filter.1 hep
  obtain ⟨hseries, _⟩ := key_eq_some_iff.1 (beq_iff_eq.1 hkey)
  rcases hfrom ep hmem with hnone | ⟨e, hlookup, hsid, _, hserver⟩
  · rw [hseries] at hnone
    cases hnone
  · exact ⟨e.srvUrl, e, mem_of_lookup hlookup, hsid.symm.trans hseries, hserver, rfl⟩

/-- The eligible files of a group, each once. -/
def eligiblePaths (cache : ServerCache) (unit : DeletionUnit) (eligible : List QueueEntry)
    (key : GroupKey) (url : String) : List String :=
  distinctPaths (groupOf unit eligible key) ++
    ((held cache key url).filter fun p => p.1 ∈ eligible.map (·.filePath) ∧
      p.1 ∉ distinctPaths (groupOf unit eligible key)).map Prod.fst

theorem length_eligiblePaths :
    (eligiblePaths cache unit eligible key url).length =
      (distinctPaths (groupOf unit eligible key)).length +
        ungrouped cache unit eligible key url := by
  rw [eligiblePaths, List.length_append, List.length_map, ungrouped]

theorem mem_eligiblePaths {p : String × CachedFile} (hp : p ∈ held cache key url) :
    p.1 ∈ eligiblePaths cache unit eligible key url ↔ ∃ ep ∈ eligible, ep.filePath = p.1 := by
  rw [eligiblePaths, List.mem_append]
  constructor
  · rintro (hgroup | hother)
    · obtain ⟨ep, hep, hpath⟩ := mem_distinctPaths.1 hgroup
      exact ⟨ep, List.mem_of_mem_filter hep, hpath⟩
    · obtain ⟨other, hother, hpath⟩ := List.mem_map.1 hother
      have heligible := (of_decide_eq_true (List.mem_filter.1 hother).2).1
      rw [hpath] at heligible
      exact List.mem_map.1 heligible
  · intro heligible
    by_cases hgroup : p.1 ∈ distinctPaths (groupOf unit eligible key)
    · exact .inl hgroup
    · refine .inr (List.mem_map.2 ⟨p, List.mem_filter.2 ⟨hp, decide_eq_true ⟨?_, hgroup⟩⟩, rfl⟩)
      exact List.mem_map.2 heligible

/-- What holds of the entries of a group on one server. -/
structure OnServer (cache : ServerCache) (unit : DeletionUnit) (eligible : List QueueEntry)
    (key : GroupKey) (url : String) : Prop where
  nodup : (cache.map Prod.fst).Nodup
  fromCache : ∀ ep ∈ eligible, FromCache cache ep
  server : ∀ ep ∈ groupOf unit eligible key, ep.arrServerUrl = some url

theorem OnServer.nodup_held (h : OnServer cache unit eligible key url) :
    ((held cache key url).map Prod.fst).Nodup := h.nodup.sublist (List.filter_sublist.map _)

theorem OnServer.nodup_eligiblePaths (h : OnServer cache unit eligible key url) :
    (eligiblePaths cache unit eligible key url).Nodup := by
  refine (List.nodup_dedup _).append (h.nodup_held.sublist (List.filter_sublist.map _)) ?_
  intro path hgroup hother
  obtain ⟨p, hp, rfl⟩ := List.mem_map.1 hother
  exact (of_decide_eq_true (List.mem_filter.1 hp).2).2 hgroup

theorem OnServer.eligiblePaths_subset (h : OnServer cache unit eligible key url) :
    eligiblePaths cache unit eligible key url ⊆ (held cache key url).map Prod.fst := by
  intro path hpath
  rcases List.mem_append.1 hpath with hgroup | hother
  · obtain ⟨ep, hep, rfl⟩ := mem_distinctPaths.1 hgroup
    obtain ⟨hmem, hkey⟩ := List.mem_filter.1 hep
    obtain ⟨e, he⟩ := exists_mem_held (h.fromCache ep hmem) (by simpa using hkey) (h.server ep hep)
    exact List.mem_map.2 ⟨_, he, rfl⟩
  · obtain ⟨p, hp, rfl⟩ := List.mem_map.1 hother
    exact List.mem_map.2 ⟨p, List.mem_of_mem_filter hp, rfl⟩

/-- **A complete group has all its files** exactly when what its counts have too much and too little
balances. -/
theorem OnServer.forall_held_iff (h : OnServer cache unit eligible key url)
    (hlength : (groupOf unit eligible key).length = cachedTotal cache.listing key) :
    (∀ p ∈ held cache key url, ∃ ep ∈ eligible, ep.filePath = p.1) ↔
      repeats (groupOf unit eligible key) + seasonless cache key url =
        elsewhere cache key url + ungrouped cache unit eligible key url := by
  have hall : (∀ p ∈ held cache key url, ∃ ep ∈ eligible, ep.filePath = p.1) ↔
      (held cache key url).map Prod.fst ⊆ eligiblePaths cache unit eligible key url := by
    constructor
    · intro hcovered path hpath
      obtain ⟨p, hp, rfl⟩ := List.mem_map.1 hpath
      exact (mem_eligiblePaths hp).2 (hcovered p hp)
    · exact fun hsubset p hp => (mem_eligiblePaths hp).1 (hsubset (List.mem_map_of_mem hp))
  rw [hall, subset_iff_length_eq h.nodup_eligiblePaths h.nodup_held h.eligiblePaths_subset,
    length_eligiblePaths, List.length_map]
  have hheld : (held cache key url).length + elsewhere cache key url =
      cachedTotal cache.listing key + seasonless cache key url := length_held
  have hrepeats : (distinctPaths (groupOf unit eligible key)).length + _ = _ := repeats_add
  omega

end Counts

/-! ### The law -/

section Law

variable {parse : String → Option ℤ} {cache : ServerCache} {unit : DeletionUnit}
  {eligible : List QueueEntry} {queuedIds : Option (List String)} {key : GroupKey}
  {row : QueueEntry}

/-- A row has the key of its group. -/
theorem key_consolidatedEntry
    (hentry : consolidatedEntry parse cache.listing key (groupOf unit eligible key) = some row) :
    unit.key row = some key ∧ row.sonarrSeriesId = some key.1 ∧ row.seasonNumber = key.2 ∧
      ∃ anchor ∈ groupOf unit eligible key, row.arrServerUrl = anchor.arrServerUrl := by
  obtain ⟨anchor, hargmax, rfl⟩ := Option.map_eq_some_iff.1 hentry
  have hanchor : anchor ∈ groupOf unit eligible key := List.argmax_mem hargmax
  obtain ⟨_, hunit⟩ := key_eq_some_iff.1 (by simpa using (List.mem_filter.1 hanchor).2)
  refine ⟨key_eq_some_iff.2 ⟨rfl, ?_⟩, rfl, rfl, anchor, hanchor, rfl⟩
  rcases hunit with hseries | ⟨hseason, hsome, _⟩
  · exact .inl hseries
  · exact .inr ⟨hseason, hsome, rfl⟩

/-- The law of the row of a group. -/
theorem soundFor_iff (hnodup : (cache.map Prod.fst).Nodup)
    (hfrom : ∀ ep ∈ eligible, FromCache cache ep)
    (hlength : (groupOf unit eligible key).length = cachedTotal cache.listing key)
    (hentry : consolidatedEntry parse cache.listing key (groupOf unit eligible key) = some row) :
    SoundFor cache unit eligible row ↔
      ∃ url, (∀ ep ∈ groupOf unit eligible key, ep.arrServerUrl = some url) ∧
        repeats (groupOf unit eligible key) + seasonless cache key url =
          elsewhere cache key url + ungrouped cache unit eligible key url := by
  obtain ⟨hkey, hseries, hseason, anchor, hanchor, hserver⟩ := key_consolidatedEntry hentry
  obtain ⟨url, _, _, _, hurl, _⟩ := exists_cached_of_mem hfrom hanchor
  rw [hurl] at hserver
  have hheld : ∀ p : String × CachedFile,
      p.2.HeldFor row ↔ p.2.seriesId = some key.1 ∧ p.2.srvUrl = url ∧
        (key.2 = none ∨ p.2.seasonNumber = key.2) := by
    intro p
    rw [CachedFile.HeldFor, hseries, hseason, hserver, Option.some.injEq, eq_comm (a := url)]
  have hcovered : (∀ p ∈ cache, p.2.HeldFor row → ∃ ep ∈ eligible, ep.filePath = p.1) ↔
      ∀ p ∈ held cache key url, ∃ ep ∈ eligible, ep.filePath = p.1 := by
    simp only [hheld, held, List.mem_filter, decide_eq_true_eq, and_imp]
  constructor
  · intro hsound
    have hsame : ∀ ep ∈ groupOf unit eligible key, ep.arrServerUrl = some url := by
      intro ep hep
      obtain ⟨hmem, hepKey⟩ := List.mem_filter.1 hep
      rw [← hserver]
      exact hsound.sameServer ep hmem ((beq_iff_eq.1 hepKey).trans hkey.symm)
    have hon : OnServer cache unit eligible key url := ⟨hnodup, hfrom, hsame⟩
    exact ⟨url, hsame, (hon.forall_held_iff hlength).1 (hcovered.1 hsound.covered)⟩
  · rintro ⟨other, hsame, hbalance⟩
    obtain rfl : url = other := Option.some.inj (hurl.symm.trans (hsame anchor hanchor))
    have hon : OnServer cache unit eligible key url := ⟨hnodup, hfrom, hsame⟩
    refine ⟨hcovered.2 ((hon.forall_held_iff hlength).2 hbalance), fun ep hep hepKey => ?_⟩
    rw [hserver]
    exact hsame ep (List.mem_filter.2 ⟨hep, beq_iff_eq.2 (hepKey.trans hkey)⟩)

/-- A complete group has an entry. -/
theorem exists_consolidatedEntry (hinserts : Inserts cache unit eligible queuedIds key) :
    ∃ row, consolidatedEntry parse cache.listing key (groupOf unit eligible key) = some row := by
  have hne : groupOf unit eligible key ≠ [] := by
    intro hnil
    have hlength := hinserts.2.1
    rw [hnil] at hlength
    exact hinserts.1.ne hlength
  have hsome : List.argmax (fun ep : QueueEntry => ep.deleteAt)
      (groupOf unit eligible key) ≠ none :=
    mt List.argmax_eq_none.1 hne
  obtain ⟨anchor, hanchor⟩ := Option.ne_none_iff_exists'.1 hsome
  exact ⟨_, Option.map_eq_some_iff.2 ⟨anchor, hanchor, rfl⟩⟩

/-- The rows that are inserted are those of the groups that are inserted. -/
theorem forall_inserted_iff {P : QueueEntry → Prop} :
    (∀ row ∈ consolidateAndInsert parse eligible cache.listing unit queuedIds, P row) ↔
      ∀ key, Inserts cache unit eligible queuedIds key → ∀ row,
        consolidatedEntry parse cache.listing key (groupOf unit eligible key) = some row →
          P row := by
  simp only [mem_consolidateAndInsert_iff]
  constructor
  · exact fun h key hinserts row hentry => h row ⟨key, ⟨hinserts.1, hinserts.2.1⟩,
      hinserts.2.2, hentry⟩
  · rintro h row ⟨key, ⟨hpos, hlength⟩, hnew, hentry⟩
    exact h key ⟨hpos, hlength, hnew⟩ row hentry

/-- **A list without duplicates, and a cache whose files have seasons and whose series have one
server each, have the law.** -/
theorem soundFor_of_distinct (hnodup : (cache.map Prod.fst).Nodup)
    (hfrom : ∀ ep ∈ eligible, FromCache cache ep) (hdistinct : (eligible.map (·.filePath)).Nodup)
    (hseasons : ∀ p ∈ cache, p.2.seasonNumber ≠ none)
    (hservers : ∀ p ∈ cache, ∀ p' ∈ cache, p.2.seriesId ≠ none → p.2.seriesId = p'.2.seriesId →
      p.2.srvUrl = p'.2.srvUrl) :
    ∀ row ∈ consolidateAndInsert parse eligible cache.listing unit queuedIds,
      SoundFor cache unit eligible row := by
  refine forall_inserted_iff.2 fun key hinserts row hentry => ?_
  obtain ⟨_, _, _, anchor, hanchor, _⟩ := key_consolidatedEntry hentry
  obtain ⟨url, e, he, hsid, hurl⟩ := exists_cached_of_mem hfrom hanchor
  have hsame : ∀ ep ∈ groupOf unit eligible key, ep.arrServerUrl = some url := by
    intro ep hep
    obtain ⟨other, e', he', hsid', hurl'⟩ := exists_cached_of_mem hfrom hep
    have hservers' := hservers _ he _ he' (by simp [hsid]) (hsid.trans hsid'.symm)
    rw [hurl'.1, ← hurl'.2, ← hservers', hurl.2]
  have hon : OnServer cache unit eligible key url := ⟨hnodup, hfrom, hsame⟩
  have hrepeats : repeats (groupOf unit eligible key) = 0 := by
    have hpaths : ((groupOf unit eligible key).map (·.filePath)).Nodup :=
      hdistinct.sublist (List.filter_sublist.map _)
    rw [repeats, distinctPaths, hpaths.dedup, List.length_map, Nat.sub_self]
  have hseasonless : seasonless cache key url = 0 := by
    rw [seasonless, List.length_eq_zero_iff, List.filter_eq_nil_iff]
    intro p hp hmiss
    exact hseasons p hp (of_decide_eq_true hmiss).2.2.2
  have helsewhere : elsewhere cache key url = 0 := by
    rw [elsewhere, List.length_eq_zero_iff, List.filter_eq_nil_iff]
    intro p hp hmiss
    obtain ⟨hcounts, hne⟩ := of_decide_eq_true hmiss
    rw [GroupKey.counts, Bool.and_eq_true, beq_iff_eq] at hcounts
    exact hne ((hservers _ he _ hp (by simp [hsid]) (hsid.trans hcounts.1.symm)).symm.trans hurl.2)
  have hbound : (eligiblePaths cache unit eligible key url).length ≤
      ((held cache key url).map Prod.fst).length :=
    (hon.nodup_eligiblePaths.subperm hon.eligiblePaths_subset).length_le
  rw [length_eligiblePaths, List.length_map] at hbound
  have hheld : (held cache key url).length + elsewhere cache key url =
      cachedTotal cache.listing key + seasonless cache key url := length_held
  have hgroup : (distinctPaths (groupOf unit eligible key)).length + _ = _ := repeats_add
  have hlength := hinserts.2.1
  exact (soundFor_iff hnodup hfrom hlength hentry).2 ⟨url, hsame, by omega⟩

/-- **Exactly when the law holds**: every group that is complete by its counts is on one server, and
its duplicates and the files without a season are as many as the files of other servers and those
that are eligible under no series. -/
theorem forall_soundFor_iff {servers : List ServedSonarr}
    (hfrom : ∀ ep ∈ eligible, FromCache (buildSonarrPathCache servers) ep) :
    (∀ row ∈ consolidateAndInsert parse eligible
      (buildSonarrPathCache servers).listing unit queuedIds,
      SoundFor (buildSonarrPathCache servers) unit eligible row) ↔
      ∀ key, Inserts (buildSonarrPathCache servers) unit eligible queuedIds key →
        ∃ url, (∀ ep ∈ groupOf unit eligible key, ep.arrServerUrl = some url) ∧
          repeats (groupOf unit eligible key) + seasonless (buildSonarrPathCache servers) key url =
            elsewhere (buildSonarrPathCache servers) key url +
              ungrouped (buildSonarrPathCache servers) unit eligible key url := by
  rw [forall_inserted_iff]
  refine forall₂_congr fun key hinserts => ?_
  obtain ⟨row, hrow⟩ : ∃ row, consolidatedEntry parse _ key _ = some row :=
    exists_consolidatedEntry hinserts
  rw [← soundFor_iff nodup_buildSonarrPathCache hfrom hinserts.2.1 hrow]
  constructor
  · exact fun h => h row hrow
  · intro h other hother
    obtain rfl := Option.some.inj (hrow.symm.trans hother)
    exact h

end Law

/-- A server with one series: two files of its first season. -/
def showServer : ServedSonarr where
  srv := { url := "http://sonarr/", apiKey := "k" }
  series := some [{
    id := some 7
    path := "/tv/Show"
    title := "Show"
    files := some [⟨some 1, "/tv/Show/1.mkv", some 1⟩, ⟨some 2, "/tv/Show/2.mkv", some 1⟩] }]

/-- The entry of an episode of that season. -/
def showEpisode (embyId path : String) : QueueEntry where
  embyId := embyId
  title := "Episode"
  mediaType := "Episode"
  libraryId := "shows"
  libraryName := "Shows"
  filePath := path
  detectedAt := "2025-01-01"
  deleteAt := "2025-01-08"
  sonarrSeriesId := some 7
  seasonNumber := some 1
  arrServerUrl := some "http://sonarr"

def showCache : ServerCache := buildSonarrPathCache [showServer]

/-- A file of that season, as the cache has it. -/
def showFile (efId : ℤ) : CachedFile where
  efId := some efId
  seriesId := some 7
  seasonNumber := some 1
  seriesTitle := "Show"
  srvUrl := "http://sonarr"
  srvKey := "k"

theorem fromCache_first : FromCache showCache (showEpisode "e1" "/tv/Show/1.mkv") := by
  have hlookup : showCache.lookup "/tv/Show/1.mkv" = some (showFile 1) := by decide
  exact .inr ⟨_, hlookup, rfl, rfl, rfl⟩

theorem fromCache_second : FromCache showCache (showEpisode "e2" "/tv/Show/2.mkv") := by
  have hlookup : showCache.lookup "/tv/Show/2.mkv" = some (showFile 2) := by decide
  exact .inr ⟨_, hlookup, rfl, rfl, rfl⟩

/-- Each file of the season once. -/
def eachOnce : List QueueEntry :=
    [showEpisode "e1" "/tv/Show/1.mkv", showEpisode "e2" "/tv/Show/2.mkv"]

/-- The first file, which a page of the scan lists a second time. -/
def firstTwice : List QueueEntry :=
    [showEpisode "e1" "/tv/Show/1.mkv", showEpisode "e1" "/tv/Show/1.mkv"]

theorem forall_soundFor_iff_eachOnce :
    (∀ ep ∈ eachOnce, FromCache showCache ep) ∧
    ((∀ row ∈ consolidateAndInsert (fun _ => none) eachOnce showCache.listing .season (some []),
      SoundFor showCache .season eachOnce row) ↔
      ∀ key, Inserts showCache .season eachOnce (some []) key →
        ∃ url, (∀ ep ∈ groupOf .season eachOnce key, ep.arrServerUrl = some url) ∧
          repeats (groupOf .season eachOnce key) + seasonless showCache key url =
            elsewhere showCache key url + ungrouped showCache .season eachOnce key url) := by
  have hfrom : ∀ ep ∈ eachOnce, FromCache showCache ep := by
    rw [eachOnce, List.forall_mem_cons, List.forall_mem_singleton]
    exact ⟨fromCache_first, fromCache_second⟩
  exact ⟨hfrom, forall_soundFor_iff hfrom⟩

/-- The duplicate of the first file completes the season without the second one. -/
theorem not_soundFor_firstTwice :
    (∀ ep ∈ firstTwice, FromCache showCache ep) ∧
    ∃ row ∈ consolidateAndInsert (fun _ => none) firstTwice showCache.listing .season (some []),
      ¬ SoundFor showCache .season firstTwice row := by
  constructor
  · rw [firstTwice, List.forall_mem_cons, List.forall_mem_singleton]
    exact ⟨fromCache_first, fromCache_first⟩
  · have hcomplete : 0 < cachedTotal showCache.listing (7, some 1) ∧
        (groupOf .season firstTwice (7, some 1)).length =
          cachedTotal showCache.listing (7, some 1) := by
      decide
    refine ⟨_, mem_consolidateAndInsert_iff.2 ⟨(7, some 1), hcomplete, List.not_mem_nil, rfl⟩, ?_⟩
    intro hsound
    have hcached : ("/tv/Show/2.mkv", showFile 2) ∈ showCache := by decide
    obtain ⟨ep, hep, hpath⟩ := hsound.covered _ hcached ⟨rfl, rfl, .inr rfl⟩
    have hnone : ∀ ep ∈ firstTwice, ep.filePath ≠ "/tv/Show/2.mkv" := by decide
    exact hnone ep hep hpath

end Hygie
