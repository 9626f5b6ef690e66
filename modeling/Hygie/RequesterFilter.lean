/-
**The filter on the requester.**

A library may leave out the items that given users have requested.  Before a scan all requests are
read from Seerr, page by page, and of the requests for one title the first is kept.  A page that is
answered with an error ends the reading; when Seerr cannot be reached, or its breaker is open, the
scan goes on without any request, and an item without a request has no excluded requester.

An item that the conditions of the library select has to pass the filter.  An item that they do not
queue is tried with the expert rules, which have conditions on the requester of their own.

Main definitions:

* `SeerrState`, `buildSeerrRequestCache` — what Seerr holds, and the requests that a scan knows;
* `evaluateItem`, `evaluateExpertRulesFallback`, `scanLibrary` — the two ways an item is selected,
  and the entries of a scan;
* `SeerrState.FirstListed` — the request that decides: the first one for the title, on a page that
  is read;
* `QueuedFor` — the items that a row of a scan is queued for.

Main results:

* `SeerrState.readPages_spec` — the loop over the pages;
* `sharedCache_eq_some_iff` — **the requests that a scan knows**;
* `notExcluded_of_mem_scanLibrary` — **what is queued by the conditions of a library has no excluded
  requester** that the scan knows.
-/

import Hygie.Consolidation
import Hygie.PlexMirror
import Hygie.PyText
import Hygie.RuleMigration

set_option relaxedAutoImplicit false
set_option autoImplicit false

namespace Hygie

open PyText

/-! ### The requests that a scan knows -/

/-- A request as Seerr lists it; a title without a number has none. -/
structure ListedRequest where
  tmdbId : String
  seerrId : Option ℤ
  userId : Option ℤ
  username : String := ""
  deriving DecidableEq, Repr

/-- What may happen to a page: no connection, or a status other than 200. -/
inductive PageFault
  | unreachable
  | status
  deriving DecidableEq, Repr

/-- What Seerr holds, and how it answers. -/
structure SeerrState where
  requests : List ListedRequest
  /-- A URL and a key are set. -/
  configured : Bool := true
  breakerOpen : Bool := false
  /-- The variants that answer with an array, which is taken for the last page. -/
  bareArray : Bool := false
  /-- What happens to the page that starts there. -/
  fault : ℕ → Option PageFault := fun _ => none

namespace SeerrState

variable (s : SeerrState)

/-- The loop of `_seerr_pages`, from a page on; nothing stands for an exception. -/
def readPages : ℕ → ℕ → List ListedRequest → Option (List ListedRequest)
  | 0, _, _ => none
  | fuel + 1, k, read =>
      match s.fault (100 * k) with
      | some .unreachable => none
      | some .status => some read
      | none =>
          let page := (s.requests.drop (100 * k)).take 100
          if page.isEmpty then some read
          else if s.bareArray || s.requests.length ≤ 100 * k + 100 then some (read ++ page)
          else readPages fuel (k + 1) (read ++ page)

/-- All pages. -/
def readRequests : Option (List ListedRequest) :=
  if s.breakerOpen then none else s.readPages (s.requests.length + 1) 0 []

end SeerrState

/-- The cached requests, by the number of the title. -/
abbrev RequestCache : Type := String → Option SeerrRequest

/-- The entry of a request. -/
def ListedRequest.entry (r : ListedRequest) : SeerrRequest where
  seerrId := r.seerrId
  userId := r.userId
  username := r.username

/-- `cache.setdefault`. -/
def addRequest (cache : RequestCache) (r : ListedRequest) : RequestCache :=
  if r.tmdbId = "" then cache
  else
    match cache r.tmdbId with
    | some _ => cache
    | none => Function.update cache r.tmdbId (some r.entry)

/-- `build_seerr_request_cache`; nothing stands for `ArrClientError`. -/
def buildSeerrRequestCache (s : SeerrState) : Option RequestCache :=
  if s.configured then s.readRequests.map fun read => read.foldl addRequest fun _ => none
  else some fun _ => none

/-- The cache of `_build_shared_caches`: empty when Seerr fails. -/
def sharedCache (s : SeerrState) : RequestCache := (buildSeerrRequestCache s).getD fun _ => none

/-! ### The scan of a library -/

/-- What the scan reads of an item; the number of the title is that of `resolve_item_tmdb`. -/
structure ScannedItem where
  id : String
  name : String := ""
  type : String := ""
  path : String
  tmdbId : String := ""
  dateCreated : DateText
  rating : ℚ := 0
  fileSizeGb : ℚ := 0
  userData : List UserData := []
  /-- The entry of the activity log. -/
  logged : DateText := .absent

/-- What Radarr, Sonarr and the poster lookups say of an item. -/
structure ItemDetails where
  radarrId : Option ℤ := none
  sonarrId : Option ℤ := none
  sonarrSeriesId : Option ℤ := none
  seasonNumber : Option ℤ := none
  arrServerUrl : Option String := none
  posterUrl : String := ""

/-- What the scan of a library works with; `details` asks Sonarr where the cache has nothing. -/
structure LibraryScan where
  lib : LibraryRules
  /-- `_get_seerr_grace`: the grace days by the requester. -/
  grace : Option ℤ → ℤ
  /-- The enabled expert rules, by their priority. -/
  rules : List ExpertRule
  queuedIds : List String
  ignoredIds : List String
  seerrExt : String
  details : ScannedItem → ItemDetails
  cachedDetails : ScannedItem → ItemDetails
  deletionUnit : DeletionUnit
  sonarrCache : SonarrCache

section Scan

variable (rt : Runtime) (cache : RequestCache) (sc : LibraryScan)

/-- What a rule sees of an item. -/
def ScannedItem.facts (item : ScannedItem) : ItemFacts where
  rating := item.rating
  fileSizeGb := item.fileSizeGb
  mediaType := item.type

/-- `_lookup_seerr_request`, with a cache. -/
def lookupSeerrRequest (tmdbId : String) : Option SeerrRequest :=
  if tmdbId = "" then none else cache tmdbId

/-- `_seerr_request_url`. -/
def seerrRequestUrl (seerrId : Option ℤ) (seerrExt mediaType tmdbId : String) : String :=
  if (truthyId seerrId).isNone ∨ seerrExt = "" then ""
  else
    let path := if mediaType = "Movie" then "movie" else "tv"
    rstripSlash seerrExt ++ "/" ++ path ++ "/" ++ tmdbId

/-- `_build_queue_entry`. -/
def buildEntry (item : ScannedItem) (details : ItemDetails) (mediaType : String) (graceDays : ℤ)
    (addedDate : Instant) (st : WatchState) : QueueEntry :=
  let seerr := lookupSeerrRequest cache item.tmdbId
  { embyId := item.id
    title := if item.name = "" then "?" else item.name
    mediaType := mediaType
    libraryId := sc.lib.id
    libraryName := sc.lib.name
    filePath := item.path
    detectedAt := rt.isoformat rt.now
    deleteAt := rt.isoformat (rt.now + graceDays * 86400000000)
    posterUrl := details.posterUrl
    tmdbId := item.tmdbId
    addedDate := some (rt.isoformat addedDate)
    lastPlayed := st.lastPlayed.map rt.isoformat
    viewCount := st.playCount
    seerrId := seerr.bind (·.seerrId)
    seerrUserId := seerr.bind (·.userId)
    seerrUsername := (seerr.map (·.username)).getD ""
    seerrRequestUrl :=
      seerrRequestUrl (seerr.bind (·.seerrId)) sc.seerrExt mediaType item.tmdbId
    radarrId := details.radarrId
    sonarrId := details.sonarrId
    sonarrSeriesId := details.sonarrSeriesId
    seasonNumber := details.seasonNumber
    arrServerUrl := details.arrServerUrl }

/-- `_evaluate_item`: the conditions, what is queued or ignored, and the filter, in this order. -/
def evaluateItem (item : ScannedItem) : Option QueueEntry :=
  match item.dateCreated.parse with
  | none => none
  | some added =>
      let st := aggregateUserData item.logged item.userData
      let seerrUserId := (lookupSeerrRequest cache item.tmdbId).bind (·.userId)
      if item.id = "" ∨ item.path = "" then none
      else if !evaluateConditions rt.now sc.lib.conditions sc.lib.logic (some added) st.lastPlayed
          st.playCount st.neverWatched then none
      else if item.id ∈ sc.queuedIds ∨ item.id ∈ sc.ignoredIds then none
      else if seerrFilterRejects seerrUserId sc.lib.seerrConditions then none
      else some (buildEntry rt cache sc item (sc.details item) item.type
        (sc.grace seerrUserId) added st)

/-- `_evaluate_expert_rules_fallback`. -/
def evaluateExpertRulesFallback (item : ScannedItem) : Option QueueEntry :=
  let added := item.dateCreated.parse
  let st := aggregateUserData item.logged item.userData
  let seerrUserId := (lookupSeerrRequest cache item.tmdbId).bind (·.userId)
  let (action, ruleGrace) :=
    evaluateExpertRules sc.rules
      (buildItemData rt.now item.facts st.playCount st.lastPlayed added seerrUserId)
        (some sc.lib.id)
  if action = some .queue then
    some (buildEntry rt cache sc item (sc.cachedDetails item)
      (if item.type = "" then "Movie" else item.type) ruleGrace (added.getD rt.now) st)
  else none

/-- The round of `_collect_eligible_items` for one item. -/
def collectItem (item : ScannedItem) : Option QueueEntry :=
  match evaluateItem rt cache sc item with
  | some entry => some entry
  | none =>
      if item.id = "" ∨ item.path = "" ∨ item.id ∈ sc.queuedIds ∨ item.id ∈ sc.ignoredIds then none
      else evaluateExpertRulesFallback rt cache sc item

/-- `_insert_eligible_entries`: the entries that are inserted. -/
def insertEligibleEntries (eligible : List QueueEntry) : List QueueEntry :=
  match sc.deletionUnit with
  | .episode => eligible
  | unit => consolidateAndInsert rt.parseIsoDt eligible sc.sonarrCache unit (some sc.queuedIds)

/-- `_scan_library`: the entries that are inserted, with the requests that are known. -/
def scanLibrary (s : SeerrState) (items : List ScannedItem) : List QueueEntry :=
  insertEligibleEntries rt sc (items.filterMap (collectItem rt (sharedCache s) sc))

end Scan

/-! ### The request that decides -/

namespace SeerrState

/-- The page is asked for: the pages before it were answered, and it is not past the end. -/
def Asked (s : SeerrState) (k : ℕ) : Prop :=
  (k = 0 ∨ s.bareArray = false ∧ 100 * k < s.requests.length) ∧ ∀ j < k, s.fault (100 * j) = none

/-- The requests cannot be read. -/
def Fails (s : SeerrState) : Prop :=
  s.breakerOpen = true ∨ ∃ k, s.Asked k ∧ s.fault (100 * k) = some .unreachable

/-- The page is read. -/
def Answered (s : SeerrState) (k : ℕ) : Prop := s.Asked k ∧ s.fault (100 * k) = none

/-- The first request for a title in the order of Seerr, if its page is read. -/
structure FirstListed (s : SeerrState) (tmdbId : String) (r : ListedRequest) : Prop where
  configured : s.configured = true
  reads : ¬ s.Fails
  first : ∃ i, s.Answered (i / 100) ∧ s.requests[i]? = some r ∧ r.tmdbId = tmdbId ∧
    ∀ j < i, ∀ r', s.requests[j]? = some r' → r'.tmdbId ≠ tmdbId

end SeerrState

/-! ### The pages that are read -/

namespace SeerrState

variable {s : SeerrState} {k n : ℕ} {read : List ListedRequest} {r : ListedRequest}
  {tmdbId : String}

theorem Asked.of_le {j : ℕ} (h : s.Asked k) (hj : j ≤ k) : s.Asked j := by
  refine ⟨?_, fun i hi => h.2 i (by omega)⟩
  rcases h.1 with hk | ⟨hbare, hlt⟩
  · exact .inl (by omega)
  · exact .inr ⟨hbare, by omega⟩

/-- No page is asked for after one that was not answered. -/
theorem Asked.le_of_fault {j : ℕ} (h : s.Asked j) (hfault : s.fault (100 * k) ≠ none) : j ≤ k := by
  by_contra hlt
  exact hfault (h.2 k (by omega))

/-- The first pages have been read, and no others can be. -/
structure PagesRead (s : SeerrState) (n : ℕ) (read : List ListedRequest) : Prop where
  reachable : ∀ j, s.Asked j → s.fault (100 * j) ≠ some .unreachable
  eq : read = s.requests.take (100 * n)
  lt_iff : ∀ i < s.requests.length, i < 100 * n ↔ s.Answered (i / 100)

/-- A page that is answered with an error ends the reading. -/
theorem pagesRead_of_status (hasked : s.Asked k) (hfault : s.fault (100 * k) = some .status) :
    s.PagesRead k (s.requests.take (100 * k)) where
  reachable j hj hdown := by
    have hle := hj.le_of_fault (k := k) (by rw [hfault]; nofun)
    rcases hle.lt_or_eq with hlt | rfl
    · rw [hasked.2 j hlt] at hdown
      cases hdown
    · rw [hfault] at hdown
      cases hdown
  eq := rfl
  lt_iff i _ := by
    constructor
    · intro hlt
      exact ⟨hasked.of_le (by omega), hasked.2 (i / 100) (by omega)⟩
    · intro hread
      have hle := hread.1.le_of_fault (k := k) (by rw [hfault]; nofun)
      have hne : i / 100 ≠ k := by
        intro heq
        rw [← heq, hread.2] at hfault
        cases hfault
      omega

/-- The last page ends it. -/
theorem pagesRead_of_last (hasked : s.Asked k) (hfault : s.fault (100 * k) = none)
    (hlast : s.bareArray = true ∨ s.requests.length ≤ 100 * k + 100) :
    s.PagesRead (k + 1) (s.requests.take (100 * (k + 1))) := by
  have hend : ∀ j, s.Asked j → j ≤ k := by
    intro j hj
    rcases hj.1 with hzero | ⟨hbare, hlt⟩
    · omega
    · rcases hlast with hlast | hlast
      · rw [hbare] at hlast
        cases hlast
      · omega
  have hanswered : ∀ j ≤ k, s.fault (100 * j) = none := by
    intro j hj
    rcases hj.lt_or_eq with hlt | rfl
    · exact hasked.2 j hlt
    · exact hfault
  refine ⟨fun j hj hdown => ?_, rfl, fun i _ => ⟨fun hlt => ?_, fun hread => ?_⟩⟩
  · rw [hanswered j (hend j hj)] at hdown
    cases hdown
  · exact ⟨hasked.of_le (by omega), hanswered _ (by omega)⟩
  · have hle := hend _ hread.1
    omega

/-- **The loop over the pages**: it fails at a page that cannot be reached, or it reads the pages
that are asked for up to one that is not answered. -/
theorem readPages_spec {fuel : ℕ} (hasked : s.Asked k) (hfuel : s.requests.length < k + fuel) :
    (s.readPages fuel k (s.requests.take (100 * k)) = none ∧
      ∃ j, s.Asked j ∧ s.fault (100 * j) = some .unreachable) ∨
    ∃ n read, s.readPages fuel k (s.requests.take (100 * k)) = some read ∧ s.PagesRead n read := by
  induction fuel generalizing k with
  | zero =>
      rcases hasked.1 with rfl | ⟨_, hlt⟩
      · omega
      · omega
  | succ fuel ih =>
      have hpage : s.requests.take (100 * k) ++ (s.requests.drop (100 * k)).take 100 =
          s.requests.take (100 * (k + 1)) := by
        rw [show 100 * (k + 1) = 100 * k + 100 by omega, List.take_add]
      simp only [readPages]
      split
      · next hfault => exact .inl ⟨rfl, k, hasked, hfault⟩
      · next hfault => exact .inr ⟨k, _, rfl, pagesRead_of_status hasked hfault⟩
      · next hfault =>
          split_ifs with hempty hlast
          · -- nothing is left
            rw [List.isEmpty_iff] at hempty
            rw [hempty, List.append_nil] at hpage
            have hlength : s.requests.length ≤ 100 * k := by
              have hzero := congrArg List.length hempty
              simp only [List.length_take, List.length_drop, List.length_nil] at hzero
              omega
            rw [hpage]
            exact .inr ⟨k + 1, _, rfl, pagesRead_of_last hasked hfault (.inr (by omega))⟩
          · rw [hpage]
            simp only [Bool.or_eq_true, decide_eq_true_eq] at hlast
            exact .inr ⟨k + 1, _, rfl, pagesRead_of_last hasked hfault hlast⟩
          · -- the next page
            simp only [Bool.or_eq_true, decide_eq_true_eq, not_or, Bool.not_eq_true] at hlast
            have hnext : s.Asked (k + 1) := by
              refine ⟨.inr ⟨hlast.1, by omega⟩, fun j hj => ?_⟩
              rcases (Nat.lt_succ_iff.1 hj).lt_or_eq with hlt | rfl
              · exact hasked.2 j hlt
              · exact hfault
            rw [hpage]
            exact ih hnext (by omega)

/-- The first request for a title among those that were read. -/
theorem PagesRead.find?_iff (hpages : s.PagesRead n read) (hconfigured : s.configured = true)
    (hreads : ¬ s.Fails) :
    read.find? (·.tmdbId = tmdbId) = some r ↔ s.FirstListed tmdbId r := by
  have hget : ∀ i r, read[i]? = some r ↔ s.requests[i]? = some r ∧ i < 100 * n := by
    intro i r
    rw [hpages.eq, List.getElem?_take]
    split_ifs with hlt <;> simp [hlt]
  rw [List.find?_eq_some_iff_getElem]
  constructor
  · intro hfind
    obtain ⟨hid, i, hi, hri, hbefore⟩ := hfind
    obtain ⟨hlisted, hlt⟩ := (hget i r).1 (List.getElem?_eq_some_iff.2 ⟨hi, hri⟩)
    have hlength : i < s.requests.length := (List.getElem?_eq_some_iff.1 hlisted).1
    refine ⟨hconfigured, hreads, i, (hpages.lt_iff i hlength).1 hlt, hlisted,
      of_decide_eq_true hid, ?_⟩
    intro j hj r' hr'
    obtain ⟨hj', hr''⟩ := List.getElem?_eq_some_iff.1 ((hget j r').2 ⟨hr', hj.trans hlt⟩)
    have hne := hbefore j hj
    rw [hr''] at hne
    simpa using hne
  · intro hfirst
    obtain ⟨i, hanswered, hlisted, hid, hbefore⟩ := hfirst.first
    have hlength : i < s.requests.length := (List.getElem?_eq_some_iff.1 hlisted).1
    have hlt : i < 100 * n := (hpages.lt_iff i hlength).2 hanswered
    obtain ⟨hi, hri⟩ := List.getElem?_eq_some_iff.1 ((hget i r).2 ⟨hlisted, hlt⟩)
    refine ⟨decide_eq_true hid, i, hi, hri, fun j hj => ?_⟩
    have hjlength : j < read.length := hj.trans hi
    have hne := hbefore j hj _ ((hget j _).1 (List.getElem?_eq_getElem hjlength)).1
    simpa using hne

theorem asked_zero : s.Asked 0 := ⟨.inl rfl, fun j hj => absurd hj (Nat.not_lt_zero j)⟩

/-- All requests, unless Seerr fails. -/
theorem readRequests_spec :
    (s.readRequests = none ∧ s.Fails) ∨
      ∃ n read, s.readRequests = some read ∧ ¬ s.Fails ∧ s.PagesRead n read := by
  by_cases hbreaker : s.breakerOpen = true
  · exact .inl ⟨if_pos hbreaker, .inl hbreaker⟩
  · have hread : s.readRequests = s.readPages (s.requests.length + 1) 0
        (s.requests.take (100 * 0)) :=
      if_neg hbreaker
    have hfuel : s.requests.length < 0 + (s.requests.length + 1) := by omega
    rcases readPages_spec asked_zero hfuel with ⟨hnone, hdown⟩ | ⟨n, read, hsome, hpages⟩
    · exact .inl ⟨hread.trans hnone, .inr hdown⟩
    · refine .inr ⟨n, read, hread.trans hsome, fun hfails => ?_, hpages⟩
      rcases hfails with hopen | ⟨j, hasked, hdown⟩
      · exact hbreaker hopen
      · exact hpages.reachable j hasked hdown

end SeerrState

/-! ### The cache -/

variable {s : SeerrState} {tmdbId : String}

/-- The first request for a title is kept. -/
theorem foldl_addRequest {read : List ListedRequest} {cache : RequestCache} (hid : tmdbId ≠ "") :
    read.foldl addRequest cache tmdbId =
      (cache tmdbId).or ((read.find? (·.tmdbId = tmdbId)).map ListedRequest.entry) := by
  induction read generalizing cache with
  | nil => simp
  | cons r read ih =>
      rw [List.foldl_cons, ih, List.find?_cons]
      by_cases hr : r.tmdbId = tmdbId
      · have hadd : addRequest cache r tmdbId = (cache tmdbId).or (some r.entry) := by
          rw [addRequest, if_neg (by rwa [hr]), hr]
          cases hcached : cache tmdbId with
          | none => simp
          | some _ => simp [hcached]
        rw [hadd, decide_eq_true hr]
        cases cache tmdbId <;> rfl
      · have hadd : addRequest cache r tmdbId = cache tmdbId := by
          simp only [addRequest]
          split_ifs
          · rfl
          · rcases Option.eq_none_or_eq_some (cache r.tmdbId) with hcached | ⟨_, hcached⟩
            · simp only [hcached, Function.update_of_ne (Ne.symm hr)]
            · simp only [hcached]
        rw [hadd, decide_eq_false hr]

/-- **The requests that a scan knows**: for each title the first in the order of Seerr, if its page
is read, and none when Seerr fails. -/
theorem sharedCache_eq_some_iff {entry : SeerrRequest} (hid : tmdbId ≠ "") :
    sharedCache s tmdbId = some entry ↔ ∃ r, s.FirstListed tmdbId r ∧ r.entry = entry := by
  by_cases hconfigured : s.configured = true
  · rcases SeerrState.readRequests_spec (s := s) with
      ⟨hnone, hfails⟩ | ⟨n, read, hsome, hreads, hpages⟩
    · have hempty : sharedCache s tmdbId = none := by
        simp [sharedCache, buildSeerrRequestCache, hconfigured, hnone]
      rw [hempty]
      refine ⟨nofun, fun h => ?_⟩
      obtain ⟨r, hfirst, _⟩ := h
      exact absurd hfails hfirst.reads
    · have hcache : sharedCache s tmdbId =
          (read.find? (·.tmdbId = tmdbId)).map ListedRequest.entry := by
        simp [sharedCache, buildSeerrRequestCache, hconfigured, hsome, foldl_addRequest hid]
      rw [hcache, Option.map_eq_some_iff]
      exact exists_congr fun r => and_congr_left fun _ => hpages.find?_iff hconfigured hreads
  · have hempty : sharedCache s tmdbId = none := by
      simp [sharedCache, buildSeerrRequestCache, hconfigured]
    rw [hempty]
    refine ⟨nofun, fun h => ?_⟩
    obtain ⟨r, hfirst, _⟩ := h
    exact absurd hfirst.configured hconfigured

/-! ### What is queued -/

section Queued

variable {rt : Runtime} {cache : RequestCache} {sc : LibraryScan} {item : ScannedItem}
  {items : List ScannedItem} {entry row : QueueEntry}

/-- The conditions of the library select an item. -/
def SelectedByConditions (rt : Runtime) (s : SeerrState) (sc : LibraryScan)
    (item : ScannedItem) : Prop :=
  (evaluateItem rt (sharedCache s) sc item).isSome = true

/-- They do not, and an expert rule does. -/
def SelectedByRules (rt : Runtime) (s : SeerrState) (sc : LibraryScan)
    (item : ScannedItem) : Prop :=
  ¬ SelectedByConditions rt s sc item ∧
    (evaluateExpertRulesFallback rt (sharedCache s) sc item).isSome = true

/-- The request that decides is not by an excluded user. -/
def NotExcluded (s : SeerrState) (sc : LibraryScan) (tmdbId : String) : Prop :=
  ∀ r, s.FirstListed tmdbId r → ¬ Excluded sc.lib r.userId

/-- An item that passes has no excluded requester. -/
theorem not_excluded_of_not_rejects {lib : LibraryRules} {seerrUserId : Option ℤ}
    (h : seerrFilterRejects seerrUserId lib.seerrConditions = false) :
    ¬ Excluded lib seerrUserId := by
  intro hexcluded
  have hpasses : seerrFilterPasses seerrUserId lib.seerrConditions = true := by
    simp only [seerrFilterRejects] at h
    split_ifs at h with hempty
    · rw [seerrFilterPasses, if_pos hempty]
    · simpa using h
  exact (seerrFilterPasses_iff.1 hpasses).2 hexcluded

theorem evaluateItem_eq_some (h : evaluateItem rt cache sc item = some entry) :
    entry.tmdbId = item.tmdbId ∧
      ¬ Excluded sc.lib ((lookupSeerrRequest cache item.tmdbId).bind (·.userId)) := by
  simp only [evaluateItem] at h
  split at h
  · cases h
  · split_ifs at h with _ _ _ hrejects
    obtain rfl := Option.some.inj h
    exact ⟨rfl, not_excluded_of_not_rejects (by simpa using hrejects)⟩

theorem evaluateExpertRulesFallback_eq_some
    (h : evaluateExpertRulesFallback rt cache sc item = some entry) :
    entry.tmdbId = item.tmdbId := by
  simp only [evaluateExpertRulesFallback] at h
  split at h
  · obtain rfl := Option.some.inj h
    rfl
  · cases h

/-- **The conditions of a library** select no item with an excluded requester that the scan knows.
-/
theorem SelectedByConditions.notExcluded (h : SelectedByConditions rt s sc item)
    (hid : item.tmdbId ≠ "") : NotExcluded s sc item.tmdbId := by
  obtain ⟨entry, hentry⟩ := Option.isSome_iff_exists.1 h
  intro r hfirst hexcluded
  have hcached : sharedCache s item.tmdbId = some r.entry :=
    (sharedCache_eq_some_iff hid).2 ⟨r, hfirst, rfl⟩
  have hnot := (evaluateItem_eq_some hentry).2
  rw [lookupSeerrRequest, if_neg hid, hcached] at hnot
  exact hnot hexcluded

/-- The entry of an item is built with one of the two ways to look up its identifiers. -/
theorem exists_buildEntry {item : ScannedItem} {entry : QueueEntry} {cache : RequestCache}
    (h : collectItem rt cache sc item = some entry) :
    ∃ details mediaType graceDays added,
      (details = sc.details item ∨ details = sc.cachedDetails item) ∧
      entry = buildEntry rt cache sc item details mediaType graceDays added
        (aggregateUserData item.logged item.userData) := by
  simp only [collectItem] at h
  split at h
  · next found hfound =>
      obtain rfl := Option.some.inj h
      simp only [evaluateItem] at hfound
      split at hfound
      · cases hfound
      · split_ifs at hfound
        exact ⟨_, _, _, _, .inl rfl, (Option.some.inj hfound).symm⟩
  · split_ifs at h
    simp only [evaluateExpertRulesFallback] at h
    split at h
    · exact ⟨_, _, _, _, .inr rfl, (Option.some.inj h).symm⟩
    · cases h

/-- An item that is collected is selected in one of the two ways. -/
theorem selected_of_collectItem (h : collectItem rt (sharedCache s) sc item = some entry) :
    entry.tmdbId = item.tmdbId ∧
      (SelectedByConditions rt s sc item ∨ SelectedByRules rt s sc item) := by
  simp only [collectItem] at h
  split at h
  · next entry' heval =>
      obtain rfl := Option.some.inj h
      exact ⟨(evaluateItem_eq_some heval).1, .inl (Option.isSome_iff_exists.2 ⟨_, heval⟩)⟩
  · next heval =>
      split_ifs at h
      refine ⟨evaluateExpertRulesFallback_eq_some h, .inr ⟨?_, ?_⟩⟩
      · simp [SelectedByConditions, heval]
      · exact Option.isSome_iff_exists.2 ⟨_, h⟩

/-- **The items that a row of a scan is queued for**: the item itself, or the episodes of its
group. -/
def QueuedFor (rt : Runtime) (s : SeerrState) (sc : LibraryScan) (row : QueueEntry)
    (item : ScannedItem) : Prop :=
  ∃ entry, collectItem rt (sharedCache s) sc item = some entry ∧
    match sc.deletionUnit with
    | .episode => entry = row
    | unit => ∃ sid, row.sonarrSeriesId = some sid ∧ unit.key entry = some (sid, row.seasonNumber)

/-- A row has the title of an item that it is queued for. -/
theorem exists_queuedFor (h : row ∈ scanLibrary rt sc s items) :
    ∃ item ∈ items, QueuedFor rt s sc row item ∧ row.tmdbId = item.tmdbId := by
  have hcollected : ∀ entry ∈ items.filterMap (collectItem rt (sharedCache s) sc),
      ∃ item ∈ items, collectItem rt (sharedCache s) sc item = some entry ∧
        entry.tmdbId = item.tmdbId := by
    intro entry hentry
    obtain ⟨item, hitem, hcollect⟩ := List.mem_filterMap.1 hentry
    exact ⟨item, hitem, hcollect, (selected_of_collectItem hcollect).1⟩
  simp only [scanLibrary, insertEligibleEntries] at h
  split at h
  · next hunit =>
      obtain ⟨item, hitem, hcollect, htitle⟩ := hcollected row h
      exact ⟨item, hitem, ⟨row, hcollect, by rw [hunit]⟩, htitle⟩
  · next hunit =>
      -- the row is the copy of one of the episodes of its group
      obtain ⟨key, -, hentry⟩ := consolidatedEntry_of_mem h
      obtain ⟨anchor, hanchor, rfl⟩ := Option.map_eq_some_iff.1 hentry
      obtain ⟨heligible, hkey⟩ := List.mem_filter.1 (List.argmax_mem hanchor)
      obtain ⟨item, hitem, hcollect, htitle⟩ := hcollected anchor heligible
      refine ⟨item, hitem, ⟨anchor, hcollect, ?_⟩, htitle⟩
      split
      · next hepisode => exact absurd hepisode hunit
      · exact ⟨key.1, rfl, beq_iff_eq.1 hkey⟩

/-- **What a scan queues by the conditions of a library has no excluded requester that the scan
knows**: each item that a row is queued for has been selected by the conditions, and then the
request that decides is not by an excluded user, or by an expert rule. -/
theorem notExcluded_of_mem_scanLibrary (h : row ∈ scanLibrary rt sc s items) :
    (∃ item ∈ items, QueuedFor rt s sc row item ∧ row.tmdbId = item.tmdbId) ∧
      ∀ item ∈ items, QueuedFor rt s sc row item → item.tmdbId ≠ "" →
        SelectedByConditions rt s sc item ∧ NotExcluded s sc item.tmdbId ∨
          SelectedByRules rt s sc item := by
  refine ⟨exists_queuedFor h, fun item _ hqueued hid => ?_⟩
  obtain ⟨entry, hcollect, -⟩ := hqueued
  rcases (selected_of_collectItem hcollect).2 with hconditions | hrules
  · exact .inl ⟨hconditions, hconditions.notExcluded hid⟩
  · exact .inr hrules

/-- A library of which user 5 is excluded; a month after the film was added it is to be deleted. -/
def sampleScan : LibraryScan where
  lib :=
    { id := "movies", name := "Movies"
      conditions := [{ field := .daysSinceAdded, op := .gt, value := 30 }]
      seerrConditions := [{ type := .userExclude, userId := 5 }] }
  grace _ := 7
  rules := []
  queuedIds := []
  ignoredIds := []
  seerrExt := ""
  details _ := {}
  cachedDetails _ := {}
  deletionUnit := .episode
  sonarrCache := []

/-- A film that was added at the beginning, and sixty days have passed. -/
def sampleItem : ScannedItem where
  id := "42"
  type := "Movie"
  path := "/films/A/A.mkv"
  tmdbId := "11"
  dateCreated := .at 0

def sixtyDays : Runtime where
  now := 60 * 86400000000

/-- A request for that film. -/
def sampleRequest (userId : ℤ) : ListedRequest where
  tmdbId := "11"
  seerrId := some 1
  userId := some userId

/-- The film is queued when another user has requested it. -/
theorem notExcluded_of_mem_scanLibrary_other :
    ∃ row ∈ scanLibrary sixtyDays sampleScan { requests := [sampleRequest 6] } [sampleItem],
      QueuedFor sixtyDays { requests := [sampleRequest 6] } sampleScan row sampleItem ∧
        (SelectedByConditions sixtyDays { requests := [sampleRequest 6] } sampleScan sampleItem ∧
            NotExcluded { requests := [sampleRequest 6] } sampleScan sampleItem.tmdbId ∨
          SelectedByRules sixtyDays { requests := [sampleRequest 6] } sampleScan sampleItem) := by
  have hqueued : (scanLibrary sixtyDays sampleScan { requests := [sampleRequest 6] }
      [sampleItem]).length = 1 := by decide +kernel
  obtain ⟨row, hrow⟩ := List.length_eq_one_iff.1 hqueued
  have hmem : row ∈ scanLibrary sixtyDays sampleScan { requests := [sampleRequest 6] }
      [sampleItem] := hrow ▸ List.mem_singleton_self row
  obtain ⟨⟨item, hitem, hfor, -⟩, hlaw⟩ := notExcluded_of_mem_scanLibrary hmem
  obtain rfl := List.mem_singleton.1 hitem
  exact ⟨row, hmem, hfor, hlaw _ hitem hfor (by decide)⟩

/-- No title that a user on the exclude list has requested is queued. -/
def Protects (rt : Runtime) (sc : LibraryScan) (s : SeerrState) (items : List ScannedItem) : Prop :=
  ∀ row ∈ scanLibrary rt sc s items, ∀ r ∈ s.requests, r.tmdbId = row.tmdbId →
    ¬ Excluded sc.lib r.userId

/-- The request of an excluded user does not protect a title: another user's request may come before
it, Seerr may be cut off by its breaker, or an expert rule may select the item. -/
theorem not_protects :
    ¬ Protects sixtyDays sampleScan { requests := [sampleRequest 6, sampleRequest 5] }
      [sampleItem] ∧
    ¬ Protects sixtyDays sampleScan { requests := [sampleRequest 5], breakerOpen := true }
      [sampleItem] ∧
    ¬ Protects sixtyDays
      { sampleScan with
        rules :=
          [{ name := "Old"
             conditionGroups :=
               [{ conditions := [{ field := .addedDaysAgo, test := .compare .gt (.num 30) }] }] }] }
      { requests := [sampleRequest 5] } [sampleItem] := by
  simp only [Protects, Excluded]
  refine ⟨?_, ?_, ?_⟩
  · decide +kernel
  · decide +kernel
  · decide +kernel

end Queued

end Hygie
