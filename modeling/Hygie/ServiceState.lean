/-
**Services that do as they are told.**

What Radarr, Sonarr, the media servers, Seerr and qBittorrent hold while all of them are up: a
request is answered from what is held, a removal takes something away, and the removal of what is no
longer there is answered with 404.

The clients of the deletion are run against these services.  Each lookup comes to a value that can
be read off the holdings, and each removal to the holdings without the thing removed.

Main definitions:

* `Services`, `serve` — what the services hold, and how they answer;
* `radarrAt`, `sonarrAt`, `seriesAt`, `itemAt` — what the lookups by path and identifier find;
* `QbitOp.apply` — what an operation does to the torrents.

Main results:

* `serve_of_not_touches`, `exec_of_always` — a lookup changes nothing;
* `exec_radarrFindByPath`, `exec_sonarrFindByPathFull`, `exec_findItemByPath` — **the lookups**;
* `exec_deleteItem`, `exec_radarrDelete`, `exec_sonarrWipe`, `exec_handleQbit` — **the removals**.
-/

import Hygie.ArrContent
import Hygie.MediaServers
import Hygie.ProgExec
import Hygie.Qbit

set_option relaxedAutoImplicit false
set_option autoImplicit false

namespace Hygie

open PyText

/-! ### What the services hold -/

/-- An item of a media server; films and episodes have no type here. -/
structure LibraryItem extends EmbyItem where
  type : Option ItemType := none
  deriving DecidableEq, Repr

/-- A torrent with its tags. -/
structure HeldTorrent extends Torrent where
  tags : List String := []
  deriving DecidableEq, Repr

/-- The holdings of all services, by the address of the server. -/
@[ext] structure Services where
  arr : String → ArrLibrary := fun _ => {}
  items : String → List LibraryItem := fun _ => []
  plexItems : String → List String := fun _ => []
  /-- The requests of Seerr. -/
  requests : String → List ℤ := fun _ => []
  torrents : String → List HeldTorrent := fun _ => []

/-- Radarr forgets the history of a film with the film. -/
def ArrLibrary.withoutMovie (lib : ArrLibrary) (id : ℤ) : ArrLibrary where
  movies := lib.movies.filter (·.id ≠ id)
  series := lib.series
  episodeFiles := lib.episodeFiles
  episodes := lib.episodes
  history := lib.history.filter (·.movieId ≠ some id)

/-- Sonarr keeps the episodes and the history of the files. -/
def ArrLibrary.withoutFiles (lib : ArrLibrary) (ids : List ℤ) : ArrLibrary where
  movies := lib.movies
  series := lib.series
  episodeFiles := lib.episodeFiles.filter (·.id ∉ ids)
  episodes := lib.episodes.map fun ep =>
    if ∃ i ∈ ids, ep.episodeFileId = some i then { ep with episodeFileId := none } else ep
  history := lib.history

namespace Services

variable (s : Services)

def removeMovie (url : String) (id : ℤ) : Services :=
  { s with arr := Function.update s.arr url ((s.arr url).withoutMovie id) }

def removeFiles (url : String) (ids : List ℤ) : Services :=
  { s with arr := Function.update s.arr url ((s.arr url).withoutFiles ids) }

def removeItem (url id : String) : Services :=
  { s with items := Function.update s.items url ((s.items url).filter (·.id ≠ id)) }

def removePlexItem (url ratingKey : String) : Services :=
  { s with plexItems := Function.update s.plexItems url ((s.plexItems url).filter (· ≠ ratingKey)) }

def removeRequest (url : String) (id : ℤ) : Services :=
  { s with requests := Function.update s.requests url ((s.requests url).filter (· ≠ id)) }

end Services

/-- What an operation does to the torrents. -/
def QbitOp.apply : QbitOp → List HeldTorrent → List HeldTorrent
  | createTags _, torrents => torrents
  | addTags hash tag, torrents =>
      torrents.map fun t => if t.hash = hash then { t with tags := tag :: t.tags } else t
  | delete hash _, torrents => torrents.filter (·.hash ≠ hash)

def Services.applyOp (s : Services) (url : String) (op : QbitOp) : Services :=
  { s with torrents := Function.update s.torrents url (op.apply (s.torrents url)) }

/-- The answer to a removal: 404 for what is not there, and no answer from an empty address. -/
def removal (url : String) (held : Bool) (s s' : Services) : Except Fault (Reply Unit) × Services :=
  if url = "" then (.error .fatal, s)
  else if held then (.ok (.ok ()), s')
  else (.ok (.failed 404), s)

/-- How the services answer, and what they hold afterwards; `notified` tells which last
notifications are recorded. -/
def serve (notified : ℤ → Bool) : ∀ q : Query, Services → q.Answer × Services
  | .radarrDelete url _ id _, s =>
      removal url ((s.arr url).movies.any (·.id = id)) s (s.removeMovie url id)
  | .sonarrDeleteFile url _ id, s =>
      removal url ((s.arr url).episodeFiles.any (·.id = id)) s (s.removeFiles url [id])
  | .sonarrDeleteFiles url _ ids, s => removal url true s (s.removeFiles url ids)
  | .embyItems url _ _ types, s =>
      (listing url
        (some (((s.items url).filter (·.type = some types)).map LibraryItem.toEmbyItem)), s)
  | .embyDelete url _ id, s => removal url ((s.items url).any (·.id = id)) s (s.removeItem url id)
  | .plexDelete url _ ratingKey, s =>
      removal url ((s.plexItems url).any (· = ratingKey)) s (s.removePlexItem url ratingKey)
  | .seerrDelete url _ id, s =>
      removal url ((s.requests url).any (· = id)) s (s.removeRequest url id)
  | .qbitLogin _, s => (.ok (.ok true), s)
  | .qbitTorrents url, s => (listing url (some ((s.torrents url).map HeldTorrent.toTorrent)), s)
  | .qbit url op, s => removal url true s (s.applyOp url op)
  | .notifiedNow id, s => (.ok (.ok (notified id)), s)
  | q, s => (arrAnswer s.arr q, s)

variable {notified : ℤ → Bool} {s s' : Services} {cfg : Config}

/-- Only the requests that remove or tag something change what is held. -/
theorem serve_of_not_touches {q : Query} (h : q.touches = false) : (serve notified q s).2 = s := by
  cases q with
  | radarrDelete | sonarrDeleteFile | sonarrDeleteFiles | embyDelete | plexDelete | seerrDelete
    | qbit =>
      cases h
  | _ => rfl

/-- Every answer is permitted where anything may be reported. -/
theorem permits_serve (q : Query) : Permits (fun _ _ => True) q (serve notified q s).1 := by
  rcases (serve notified q s).1 with _ | _ | _ | _
  · trivial
  · trivial
  · trivial
  · trivial

/-- A program that touches nothing leaves the services as they are. -/
theorem exec_of_always {α : Type} {x : Act α}
    (h : Prog.Always (Permits fun _ _ => True) (fun q => q.touches = false) x) :
    (Prog.exec (serve notified) x s).2 = s := by
  have hends : (∃ a, Prog.exec (serve notified) x s = (.ok a, s) ∧ True) ∨
      ∃ e, Prog.exec (serve notified) x s = (.error e, s) ∧ True :=
    Prog.exec_of_wp permits_serve (fun q hq => serve_of_not_touches hq) (Prog.always_iff_wp.1 h)
  rcases hends with ⟨_, hexec, _⟩ | ⟨_, hexec, _⟩
  · rw [hexec]
  · rw [hexec]

/-! ### One request -/

theorem exec_send_ok {σ : Type} {serve : ∀ q : Query, σ → q.Answer × σ} {q : Query} {s s' : σ}
    {r : Reply q.Body} (h : serve q s = (.ok r, s')) :
    Prog.exec serve (send q) s = (.ok r, s') := by
  rw [send, Prog.exec_bind_ok (Prog.exec_perform q s), h]
  rfl

theorem exec_send_error {σ : Type} {serve : ∀ q : Query, σ → q.Answer × σ} {q : Query} {s s' : σ}
    {e : Fault} (h : serve q s = (.error e, s')) :
    Prog.exec serve (send q) s = (.error e, s') := by
  rw [send, Prog.exec_bind_ok (Prog.exec_perform q s), h]
  rfl

/-- The breakers are closed. -/
theorem exec_withRetry_ok {α : Type} {service : String} {x : Act α} {a : α}
    (h : Prog.exec (serve notified) x s = (.ok a, s')) :
    Prog.exec (serve notified) (withRetry service x) s = (.ok a, s') := by
  have hbreaker : Prog.exec (serve notified) (send (.breaker service)) s = (.ok .noContent, s) :=
    exec_send_ok rfl
  rw [withRetry, Prog.exec_bind_ok hbreaker]
  exact Prog.exec_retry_ok h

theorem exec_httpRetry_ok {α : Type} {x : Act α} {a : α}
    (h : Prog.exec (serve notified) x s = (.ok a, s')) :
    Prog.exec (serve notified) (httpRetry x) s = (.ok a, s') := Prog.exec_retry_ok h

/-! ### The lookups -/

/-- What `radarr_find_by_path` finds. -/
def radarrAt (cfg : Config) (filePath : String) (w : String → ArrLibrary) :
    Option (ℤ × String × String) :=
  if filePath = "" then none
  else
    (getRadarrServers cfg).findSome? fun srv =>
      if srv.base = "" then none
      else ((w srv.base).movies.find? (movieMatches filePath)).map fun m => (m.id, srv.target)

theorem exec_radarrFindByPath (filePath : String) :
    Prog.exec (serve notified) (radarrFindByPath cfg filePath) s =
      (.ok (radarrAt cfg filePath s.arr), s) := by
  rw [radarrFindByPath, radarrAt]
  split_ifs with hpath
  · rfl
  · refine Prog.exec_firstSome fun srv _ => ?_
    by_cases hbase : srv.base = ""
    · have hanswer : serve notified (.radarrMovies srv.base srv.apiKey) s = (.error .fatal, s) := by
        simp [serve, arrAnswer, listing, hbase]
      rw [Prog.exec_tryCatch_error (Prog.exec_bind_error (exec_send_error hanswer)), if_pos hbase]
      rfl
    · have hanswer : serve notified (.radarrMovies srv.base srv.apiKey) s =
          (.ok (.ok (s.arr srv.base).movies), s) := by
        simp [serve, arrAnswer, listing, hbase]
      rw [if_neg hbase]
      refine Prog.exec_tryCatch_ok ?_
      rw [Prog.exec_bind_ok (exec_send_ok hanswer)]
      rfl

/-- The episode file with a path, among the files of the series above it. -/
def fileBelow (filePath : String) (lib : ArrLibrary) (series : SonarrSeries) : Option EpisodeFile :=
  if seriesMatches filePath series then
    (lib.filesOf series.id).find? fun ef => ef.path == filePath
  else none

/-- What `sonarr_find_by_path_full` finds. -/
def sonarrAt (cfg : Config) (filePath : String) (w : String → ArrLibrary) :
    Option (ℤ × String × String) :=
  if filePath = "" then none
  else
    (getSonarrServers cfg).findSome? fun srv =>
      if srv.base = "" then none
      else
        (w srv.base).series.findSome? fun series =>
          (fileBelow filePath (w srv.base) series).map fun ef => (ef.id, srv.target)

theorem exec_sonarrFindByPathFull (filePath : String) :
    Prog.exec (serve notified) (sonarrFindByPathFull cfg filePath) s =
      (.ok (sonarrAt cfg filePath s.arr), s) := by
  rw [sonarrFindByPathFull, sonarrAt]
  split_ifs with hpath
  · rfl
  · refine Prog.exec_firstSome fun srv _ => ?_
    by_cases hbase : srv.base = ""
    · have hanswer : serve notified (.sonarrSeries srv.base srv.apiKey) s = (.error .fatal, s) := by
        simp [serve, arrAnswer, listing, hbase]
      rw [Prog.exec_tryCatch_error (Prog.exec_bind_error (exec_send_error hanswer)), if_pos hbase]
      rfl
    · have hanswer : serve notified (.sonarrSeries srv.base srv.apiKey) s =
          (.ok (.ok (s.arr srv.base).series), s) := by
        simp [serve, arrAnswer, listing, hbase]
      rw [if_neg hbase]
      refine Prog.exec_tryCatch_ok ?_
      rw [Prog.exec_bind_ok (exec_send_ok hanswer)]
      refine Prog.exec_firstSome fun series _ => ?_
      rw [fileBelow]
      split_ifs with hmatch
      · have hfiles : serve notified (.sonarrEpisodeFiles srv.base srv.apiKey series.id) s =
            (.ok (.ok ((s.arr srv.base).filesOf series.id)), s) := by
          simp [serve, arrAnswer, listing, hbase]
        rw [Prog.exec_bind_ok (exec_send_ok hfiles)]
        rfl
      · rfl

/-- What `sonarr_get_series_by_id_any` finds. -/
def seriesAt (cfg : Config) (seriesId : ℤ) (w : String → ArrLibrary) : Option SonarrSeries :=
  (getSonarrServers cfg).findSome? fun srv =>
    let creds := sonarrCreds cfg srv.base srv.apiKey
    if Addressable creds seriesId then (w creds.1).series.find? (·.id = seriesId) else none

theorem exec_sonarrGetSeriesByIdAny (seriesId : ℤ) :
    Prog.exec (serve notified) (sonarrGetSeriesByIdAny cfg seriesId) s =
      (.ok (seriesAt cfg seriesId s.arr), s) := by
  refine Prog.exec_firstSome fun srv _ => ?_
  simp only [sonarrGetSeriesById]
  split_ifs with hcreds
  · refine Prog.exec_tryCatch_ok ?_
    rcases hseries : (s.arr (sonarrCreds cfg srv.base srv.apiKey).1).series.find? (·.id = seriesId)
      with _ | series
    · have hanswer : serve notified (.sonarrSeriesById (sonarrCreds cfg srv.base srv.apiKey).1
          (sonarrCreds cfg srv.base srv.apiKey).2 seriesId) s = (.ok (.failed 404), s) := by
        simp [serve, arrAnswer, listing, hseries]
      rw [Prog.exec_bind_ok (exec_send_ok hanswer), hseries]
      rfl
    · have hanswer : serve notified (.sonarrSeriesById (sonarrCreds cfg srv.base srv.apiKey).1
          (sonarrCreds cfg srv.base srv.apiKey).2 seriesId) s = (.ok (.ok series), s) := by
        simp [serve, arrAnswer, listing, hseries, hcreds.1]
      rw [Prog.exec_bind_ok (exec_send_ok hanswer), hseries]
      rfl
  · rfl

/-- What `find_item_by_path` finds. -/
def itemAt (cfg : Config) (path : String) (types : ItemType) (serverId : String)
    (items : String → List LibraryItem) : Option EmbyItem :=
  let client := getClient cfg serverId
  if path ≠ "" ∧ Contactable client then
    (((items client.1).filter (·.type = some types)).map LibraryItem.toEmbyItem).find? fun item =>
      rstripSlash item.path == rstripSlash path
  else none

theorem exec_findItemByPath (path : String) (types : ItemType) (serverId : String) :
    Prog.exec (serve notified) (findItemByPath cfg path types serverId) s =
      (.ok (itemAt cfg path types serverId s.items), s) := by
  simp only [findItemByPath, itemAt]
  split_ifs with hclient
  · have hbreaker : Prog.exec (serve notified) (send (.breaker ("emby:" ++ serverId))) s =
        (.ok .noContent, s) := exec_send_ok rfl
    have hanswer : serve notified (.embyItems (getClient cfg serverId).1 (getClient cfg serverId).2
        path types) s = (.ok (.ok (((s.items (getClient cfg serverId).1).filter
          (·.type = some types)).map LibraryItem.toEmbyItem)), s) := by
      simp [serve, listing, hclient.2.1]
    refine Prog.exec_tryCatch_ok ?_
    rw [Prog.exec_bind_ok hbreaker,
      Prog.exec_bind_ok (exec_httpRetry_ok (exec_send_ok hanswer))]
    rfl
  · rfl

/-! ### The removals -/

/-- **A deletion from Emby or Jellyfin** takes an item away that is there, and fails otherwise. -/
theorem exec_deleteItem {itemId serverId : String}
    (hclient : Contactable (getClient cfg serverId)) :
    Prog.exec (serve notified) (deleteItem cfg itemId serverId) s =
      if ∃ item ∈ s.items (getClient cfg serverId).1, item.id = itemId then
        (.ok true, s.removeItem (getClient cfg serverId).1 itemId)
      else (.ok false, s) := by
  rw [deleteItem, if_pos hclient]
  split_ifs with hheld
  · have hanswer : serve notified (.embyDelete (getClient cfg serverId).1 (getClient cfg serverId).2
        itemId) s = (.ok (.ok ()), s.removeItem (getClient cfg serverId).1 itemId) := by
      simpa [serve, removal, hclient.1] using hheld
    refine Prog.exec_tryCatch_ok ?_
    rw [Prog.exec_bind_ok (exec_httpRetry_ok (exec_send_ok hanswer))]
    rfl
  · have hanswer : serve notified (.embyDelete (getClient cfg serverId).1 (getClient cfg serverId).2
        itemId) s = (.ok (.failed 404), s) := by
      simpa [serve, removal, hclient.1] using hheld
    refine Prog.exec_tryCatch_ok ?_
    rw [Prog.exec_bind_ok (exec_httpRetry_ok (exec_send_ok hanswer))]
    rfl

theorem exec_deleteItem_of_not {itemId serverId : String}
    (hclient : ¬ Contactable (getClient cfg serverId)) :
    Prog.exec (serve notified) (deleteItem cfg itemId serverId) s = (.ok false, s) := by
  rw [deleteItem, if_neg hclient]
  rfl

/-- **A deletion from Plex.** -/
theorem exec_plexDeleteItem {plex : PlexClient} {ratingKey : String} (hurl : plex.url ≠ "") :
    Prog.exec (serve notified) (plex.deleteItem ratingKey) s =
      if ratingKey ∈ s.plexItems plex.url then (.ok true, s.removePlexItem plex.url ratingKey)
      else (.ok false, s) := by
  rw [PlexClient.deleteItem]
  split_ifs with hheld
  · have hanswer : serve notified (.plexDelete plex.url plex.token ratingKey) s =
        (.ok (.ok ()), s.removePlexItem plex.url ratingKey) := by
      simp [serve, removal, hurl, hheld]
    rw [Prog.exec_bind_ok (exec_send_ok hanswer)]
    rfl
  · have hanswer : serve notified (.plexDelete plex.url plex.token ratingKey) s =
        (.ok (.failed 404), s) := by
      simp [serve, removal, hurl, hheld]
    rw [Prog.exec_bind_ok (exec_send_ok hanswer)]
    rfl

/-- **The removal of a film.** -/
theorem exec_radarrDelete {radarrId : ℤ} {deleteFiles : Bool} {url key : String} :
    Prog.exec (serve notified) (radarrDelete cfg radarrId deleteFiles url key) s =
      if Addressable (radarrCreds cfg url key) radarrId ∧
          ∃ movie ∈ (s.arr (radarrCreds cfg url key).1).movies, movie.id = radarrId then
        (.ok true, s.removeMovie (radarrCreds cfg url key).1 radarrId)
      else (.ok false, s) := by
  simp only [radarrDelete]
  by_cases hcreds : Addressable (radarrCreds cfg url key) radarrId
  · rw [if_pos hcreds]
    split_ifs with hheld
    · have hanswer : serve notified (.radarrDelete (radarrCreds cfg url key).1
          (radarrCreds cfg url key).2 radarrId deleteFiles) s =
          (.ok (.ok ()), s.removeMovie (radarrCreds cfg url key).1 radarrId) := by
        simpa [serve, removal, hcreds.1] using hheld.2
      refine Prog.exec_tryCatch_ok (exec_withRetry_ok ?_)
      rw [Prog.exec_bind_ok (exec_send_ok hanswer)]
      rfl
    · have hanswer : serve notified (.radarrDelete (radarrCreds cfg url key).1
          (radarrCreds cfg url key).2 radarrId deleteFiles) s = (.ok (.failed 404), s) := by
        have hgone : ¬ ∃ movie ∈ (s.arr (radarrCreds cfg url key).1).movies, movie.id = radarrId :=
          fun hexists => hheld ⟨hcreds, hexists⟩
        simpa [serve, removal, hcreds.1] using hgone
      refine Prog.exec_tryCatch_ok (exec_withRetry_ok ?_)
      rw [Prog.exec_bind_ok (exec_send_ok hanswer)]
      rfl
  · rw [if_neg hcreds, if_neg fun h => hcreds h.1]
    rfl

/-- **The removal of an episode file.** -/
theorem exec_sonarrDeleteFileAt {episodeFileId : ℤ} {url key : String} (hurl : url ≠ "") :
    Prog.exec (serve notified) (sonarrDeleteFileAt episodeFileId url key) s =
      if episodeFileId ≠ 0 ∧ ∃ ef ∈ (s.arr url).episodeFiles, ef.id = episodeFileId then
        (.ok true, s.removeFiles url [episodeFileId])
      else (.ok false, s) := by
  rw [sonarrDeleteFileAt]
  by_cases hid : episodeFileId = 0
  · simp only [hid, if_true, ne_eq, not_true_eq_false, false_and, if_false]
    rfl
  · simp only [hid, if_false, ne_eq, not_false_eq_true, true_and]
    split_ifs with hheld
    · have hanswer : serve notified (.sonarrDeleteFile url key episodeFileId) s =
          (.ok (.ok ()), s.removeFiles url [episodeFileId]) := by
        simpa [serve, removal, hurl] using hheld
      refine Prog.exec_tryCatch_ok (exec_withRetry_ok ?_)
      rw [Prog.exec_bind_ok (exec_send_ok hanswer)]
      rfl
    · have hanswer : serve notified (.sonarrDeleteFile url key episodeFileId) s =
          (.ok (.failed 404), s) := by
        simpa [serve, removal, hurl] using hheld
      refine Prog.exec_tryCatch_ok (exec_withRetry_ok ?_)
      rw [Prog.exec_bind_ok (exec_send_ok hanswer)]
      rfl

@[simp] theorem withoutFiles_nil (lib : ArrLibrary) : lib.withoutFiles [] = lib := by
  simp [ArrLibrary.withoutFiles]

@[simp] theorem removeFiles_nil (url : String) : s.removeFiles url [] = s := by
  simp [Services.removeFiles]

/-- The files of a group, as they are listed. -/
def groupFiles (seasonNumber : Option ℤ) (lib : ArrLibrary) (seriesId : ℤ) : List ℤ :=
  ((lib.filesOf seriesId).filter (inGroup seasonNumber)).map EpisodeFile.id

/-- **A bulk removal** takes away the files that are listed; there may be none. -/
theorem exec_sonarrWipe (seasonNumber : Option ℤ) {unmonitor : List ℤ → Act Unit} {url key : String}
    {seriesId : ℤ} (hurl : url ≠ "")
    (hunmonitor : ∀ s efIds, Prog.exec (serve notified) (unmonitor efIds) s = (.ok (), s)) :
    Prog.exec (serve notified) (sonarrWipe (inGroup seasonNumber) unmonitor url key seriesId) s =
      (.ok true, s.removeFiles url (groupFiles seasonNumber (s.arr url) seriesId)) := by
  have hfiles : serve notified (.sonarrEpisodeFiles url key seriesId) s =
      (.ok (.ok ((s.arr url).filesOf seriesId)), s) := by
    simp [serve, arrAnswer, listing, hurl]
  have hdelete : ∀ ids, serve notified (.sonarrDeleteFiles url key ids) s =
      (.ok (.ok ()), s.removeFiles url ids) := by
    intro ids
    simp [serve, removal, hurl]
  rw [sonarrWipe, Prog.exec_bind_ok (exec_send_ok hfiles)]
  show Prog.exec (serve notified)
      (if groupFiles seasonNumber (s.arr url) seriesId = [] then _ else _)
    s = _
  split_ifs with hempty
  · rw [hempty, removeFiles_nil]
    rfl
  · rw [Prog.exec_bind_ok (exec_send_ok (hdelete _))]
    show Prog.exec (serve notified) (unmonitor _ >>= fun _ => pure true) _ = _
    rw [Prog.exec_bind_ok (hunmonitor _ _)]
    rfl

/-- `sonarr_delete_season` takes away the files of the season. -/
theorem exec_sonarrDeleteSeasonAt {seriesId seasonNumber : ℤ} {url key : String} (hurl : url ≠ "") :
    Prog.exec (serve notified) (sonarrDeleteSeasonAt seriesId seasonNumber url key) s =
      (.ok true, s.removeFiles url (groupFiles (some seasonNumber) (s.arr url) seriesId)) := by
  refine Prog.exec_tryCatch_ok (exec_withRetry_ok
    (exec_sonarrWipe (some seasonNumber) hurl fun s efIds => ?_))
  have hepisodes : serve notified (.sonarrEpisodes url key seriesId) s =
      (.ok (.ok ((s.arr url).episodesOf seriesId)), s) := by
    simp [serve, arrAnswer, listing, hurl]
  have hids : Prog.exec (serve notified) (episodeIdsForFiles url key seriesId efIds) s =
      (.ok (episodesOfFiles efIds ((s.arr url).episodesOf seriesId)), s) := by
    rw [episodeIdsForFiles, Prog.exec_bind_ok (exec_send_ok hepisodes)]
    rfl
  rw [Prog.exec_bind_ok hids, sonarrUnmonitorEpisodes]
  split_ifs with hnone
  · rfl
  · have hanswer : ∀ ids, serve notified (.sonarrUnmonitorEpisodes url key ids) s =
        (.ok .noContent, s) := fun _ => rfl
    refine Prog.exec_tryCatch_ok ?_
    rw [Prog.exec_bind_ok (exec_send_ok (hanswer _))]
    rfl

/-- `sonarr_delete_series` takes away all files of the series. -/
theorem exec_sonarrDeleteSeriesAt {seriesId : ℤ} {url key : String} (hurl : url ≠ "") :
    Prog.exec (serve notified) (sonarrDeleteSeriesAt seriesId url key) s =
      (.ok true, s.removeFiles url (groupFiles none (s.arr url) seriesId)) := by
  refine Prog.exec_tryCatch_ok (exec_withRetry_ok (exec_sonarrWipe none hurl fun s efIds => ?_))
  rcases hseries : (s.arr url).series.find? (·.id = seriesId) with _ | series
  · have hanswer : serve notified (.sonarrSeriesById url key seriesId) s =
        (.ok (.failed 404), s) := by
      simp [serve, arrAnswer, listing, hseries]
    rw [Prog.exec_bind_ok (exec_send_ok hanswer)]
    rfl
  · have hanswer : serve notified (.sonarrSeriesById url key seriesId) s =
        (.ok (.ok series), s) := by
      simp [serve, arrAnswer, listing, hseries, hurl]
    have hunmonitor : serve notified (.sonarrUnmonitorSeries url key seriesId) s =
        (.ok .noContent, s) := rfl
    rw [Prog.exec_bind_ok (exec_send_ok hanswer)]
    show Prog.exec (serve notified) (send (.sonarrUnmonitorSeries url key seriesId) >>= fun _ =>
      pure ()) s = _
    rw [Prog.exec_bind_ok (exec_send_ok hunmonitor)]
    rfl

/-- The server of a removal from Sonarr. -/
def sonarrTargetAt (cfg : Config) (arrServerUrl : Option String) (filePath : String)
    (w : String → ArrLibrary) : Option (String × String) :=
  (resolveArrServer cfg (getSonarrServers cfg) arrServerUrl).or
    ((sonarrAt cfg filePath w).map Prod.snd)

theorem exec_sonarrTarget {arrServerUrl : Option String} {filePath : String} :
    Prog.exec (serve notified) (sonarrTarget cfg "" "" arrServerUrl filePath) s =
      (.ok (sonarrTargetAt cfg arrServerUrl filePath s.arr), s) := by
  rw [sonarrTarget, if_pos (.inl rfl), sonarrTargetAt]
  cases resolveArrServer cfg (getSonarrServers cfg) arrServerUrl with
  | some target => rfl
  | none =>
      show Prog.exec (serve notified) (sonarrFindByPathFull cfg filePath >>= fun found =>
        pure (found.map Prod.snd)) s = _
      rw [Prog.exec_bind_ok (exec_sonarrFindByPathFull filePath)]
      rfl

/-- The server of a removal from Radarr. -/
def radarrTargetAt (cfg : Config) (arrServerUrl : Option String) (filePath : String)
    (w : String → ArrLibrary) : Option (String × String) :=
  (resolveArrServer cfg (getRadarrServers cfg) arrServerUrl).or
    ((radarrAt cfg filePath w).map Prod.snd)

/-- A stored film is removed from the server that the row resolves to. -/
theorem exec_radarrDeleteById {radarrId : ℤ} {deleteFiles : Bool} {arrServerUrl : Option String}
    {filePath : String} :
    Prog.exec (serve notified) (radarrDeleteById cfg radarrId deleteFiles arrServerUrl filePath) s =
      ((radarrTargetAt cfg arrServerUrl filePath s.arr).map fun target =>
        Prog.exec (serve notified) (radarrDelete cfg radarrId deleteFiles target.1 target.2) s).getD
          (.ok false, s) := by
  rw [radarrDeleteById, radarrTargetAt]
  cases resolveArrServer cfg (getRadarrServers cfg) arrServerUrl with
  | some target => rfl
  | none =>
      rw [Option.none_or, Prog.exec_bind_ok (exec_radarrFindByPath filePath)]
      cases radarrAt cfg filePath s.arr with
      | some found => rfl
      | none => rfl

/-! ### Requests and torrents -/

/-- What `seerr_delete_request` does to the requests. -/
def Services.deleteRequest (cfg : Config) (id : ℤ) (s : Services) : Services :=
  let creds := seerrConfig cfg
  if creds.1 ≠ "" ∧ creds.2 ≠ "" ∧ id ≠ 0 then s.removeRequest creds.1 id else s

theorem removeRequest_of_not_mem {url : String} {id : ℤ} (h : id ∉ s.requests url) :
    s.removeRequest url id = s := by
  have hfilter : (s.requests url).filter (· ≠ id) = s.requests url := by
    refine List.filter_eq_self.2 fun i hi => ?_
    have hne : i ≠ id := fun heq => h (heq ▸ hi)
    simpa using hne
  rw [Services.removeRequest, hfilter, Function.update_eq_self]

/-- **The deletion of a request** takes it away, whatever it returns. -/
theorem exec_seerrDeleteRequest (notified : ℤ → Bool) (cfg : Config) (s : Services) (id : ℤ) :
    ∃ ok, Prog.exec (serve notified) (seerrDeleteRequest cfg id) s =
      (.ok ok, s.deleteRequest cfg id) := by
  simp only [seerrDeleteRequest, Services.deleteRequest]
  split_ifs with hcreds
  · by_cases hheld : id ∈ s.requests (seerrConfig cfg).1
    · have hanswer : serve notified (.seerrDelete (seerrConfig cfg).1 (seerrConfig cfg).2 id) s =
          (.ok (.ok ()), s.removeRequest (seerrConfig cfg).1 id) := by
        simp [serve, removal, hcreds.1, hheld]
      refine ⟨true, Prog.exec_tryCatch_ok ?_⟩
      rw [Prog.exec_bind_ok (exec_send_ok hanswer)]
      rfl
    · have hanswer : serve notified (.seerrDelete (seerrConfig cfg).1 (seerrConfig cfg).2 id) s =
          (.ok (.failed 404), s) := by
        simp [serve, removal, hcreds.1, hheld]
      refine ⟨false, Prog.exec_tryCatch_ok ?_⟩
      rw [removeRequest_of_not_mem hheld, Prog.exec_bind_ok (exec_send_ok hanswer)]
      rfl
  · exact ⟨false, rfl⟩

/-- The address of qBittorrent: the proxy or, without one, the server itself. -/
def qbitAddress (cfg : Config) : String :=
  if rstripSlash cfg.qbitProxyUrl ≠ "" then rstripSlash cfg.qbitProxyUrl
  else rstripSlash cfg.qbitUrl

/-- What a request to qBittorrent does, if it has an address. -/
def Services.post (cfg : Config) (op : QbitOp) (s : Services) : Services :=
  if qbitAddress cfg = "" then s else s.applyOp (qbitAddress cfg) op

theorem exec_qbitPost (notified : ℤ → Bool) (cfg : Config) (s : Services) (op : QbitOp) :
    ∃ r, Prog.exec (serve notified) (qbitPost cfg op) s = (.ok r, s.post cfg op) := by
  have htry : ∀ url, url ≠ "" → Prog.exec (serve notified)
      (tryUrl cfg (fun url => send (.qbit url op)) url) s =
        (.ok (some (.ok ())), s.applyOp url op) := by
    intro url hurl
    have hanswer : serve notified (.qbit url op) s = (.ok (.ok ()), s.applyOp url op) := by
      simp [serve, removal, hurl]
    refine Prog.exec_tryCatch_ok ?_
    rw [Prog.exec_bind_ok (exec_send_ok hanswer)]
    rfl
  simp only [qbitPost, qbitRequest, Services.post]
  by_cases hproxy : rstripSlash cfg.qbitProxyUrl = ""
  · have haddress : qbitAddress cfg = rstripSlash cfg.qbitUrl := if_neg (by simp [hproxy])
    by_cases hdirect : rstripSlash cfg.qbitUrl = ""
    · rw [if_pos ⟨hproxy, hdirect⟩, haddress, if_pos hdirect]
      exact ⟨none, rfl⟩
    · rw [if_neg fun h => hdirect h.2, if_neg (by simp [hproxy]), haddress, if_neg hdirect]
      exact ⟨_, htry _ hdirect⟩
  · have haddress : qbitAddress cfg = rstripSlash cfg.qbitProxyUrl := if_pos hproxy
    rw [if_neg fun h => hproxy h.1, if_pos hproxy, haddress, if_neg hproxy,
      Prog.exec_bind_ok (htry _ hproxy)]
    exact ⟨_, rfl⟩

/-- The action removes torrents. -/
abbrev DeletesTorrents (qbitAction : String) : Prop :=
  qbitAction = "delete_torrent" ∨ qbitAction = "delete_files"

/-- What the configured action does to a torrent. -/
def qbitOp (qbitAction qbitTag hash : String) : QbitOp :=
  if DeletesTorrents qbitAction then .delete hash true else .addTags hash qbitTag

/-- What `_handle_qbit` does to the torrents. -/
def Services.handleTorrent (cfg : Config) (qbitAction qbitTag : String) (s : Services)
    (hash : String) : Services :=
  if hash = "" then s else s.post cfg (qbitOp qbitAction qbitTag hash)

theorem post_createTags {tag : String} : s.post cfg (.createTags tag) = s := by
  rw [Services.post, Services.applyOp, QbitOp.apply, Function.update_eq_self, ite_self]

/-- **The configured action on a torrent**, when there is a tag. -/
theorem exec_handleQbit {hash qbitAction qbitTag : String} (htag : qbitTag ≠ "") :
    Prog.exec (serve notified) (handleQbit cfg hash qbitAction qbitTag) s =
      (.ok (), s.handleTorrent cfg qbitAction qbitTag hash) := by
  refine Prog.exec_tryCatch_ok ?_
  rw [Services.handleTorrent, qbitOp]
  by_cases haction : DeletesTorrents qbitAction
  · rw [if_pos haction, if_pos haction, qbitDeleteTorrent]
    split_ifs with hhash
    · rfl
    · obtain ⟨r, hr⟩ := exec_qbitPost notified cfg s (.delete hash true)
      rw [bind_assoc, Prog.exec_bind_ok hr]
      rfl
  · rw [if_neg haction, if_neg haction, qbitAddTag]
    by_cases hhash : hash = ""
    · rw [if_pos (.inl hhash), if_pos hhash]
      rfl
    · obtain ⟨created, hcreated⟩ := exec_qbitPost notified cfg s (.createTags qbitTag)
      obtain ⟨tagged, htagged⟩ := exec_qbitPost notified cfg s (.addTags hash qbitTag)
      rw [post_createTags] at hcreated
      rw [if_neg (by simp [hhash, htag]), if_neg hhash, bind_assoc, Prog.exec_bind_ok hcreated,
        bind_assoc, Prog.exec_bind_ok htagged]
      rfl

end Hygie
