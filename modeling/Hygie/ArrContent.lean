/-
**What the Radarr and Sonarr servers hold.**

The clients see a server only through its answers.  Here is what stands behind them: a server, known
by its base address, holds films or series, episode files, episodes and a download history, and a
successful answer reports exactly that.  Any request may still fail, and a request to an empty
address always does, since the HTTP client rejects it.

Main definitions:

* `ArrLibrary` — the holdings of one server, and the listings its interface makes of them;
* `ArrHolds` — what a successful answer reports, given the holdings at every address;
* `arrAnswer` — the answers when every server is up.

Main results:

* `permits_arrAnswer` — servers that are up are permitted surroundings;
* `wp_radarrDeleteById_content`, `wp_onSonarrTarget_content` — the removals, in terms of what the
  servers hold.
-/

import Hygie.Radarr
import Hygie.Sonarr

set_option relaxedAutoImplicit false
set_option autoImplicit false

namespace Hygie

/-- The holdings of one Radarr or Sonarr server. -/
structure ArrLibrary where
  movies : List RadarrMovie := []
  series : List SonarrSeries := []
  episodeFiles : List EpisodeFile := []
  episodes : List Episode := []
  history : List HistoryRecord := []

namespace ArrLibrary

/-- The episode files of a series. -/
def filesOf (lib : ArrLibrary) (seriesId : ℤ) : List EpisodeFile :=
  lib.episodeFiles.filter (·.seriesId = seriesId)

/-- The episodes of a series. -/
def episodesOf (lib : ArrLibrary) (seriesId : ℤ) : List Episode :=
  lib.episodes.filter (·.seriesId = seriesId)

/-- The history of a film. -/
def movieHistory (lib : ArrLibrary) (movieId : ℤ) : List HistoryRecord :=
  lib.history.filter (·.movieId = some movieId)

/-- The history of a series. -/
def seriesHistory (lib : ArrLibrary) (seriesId : ℤ) : List HistoryRecord :=
  lib.history.filter (·.seriesId = some seriesId)

end ArrLibrary

/-- What a successful answer reports, when `w` tells what is held at each address. -/
def ArrHolds (w : String → ArrLibrary) : ∀ q : Query, q.Body → Prop
  | .radarrMovies url _, movies => url ≠ "" ∧ movies = (w url).movies
  | .radarrMovie url _ id, movie => url ≠ "" ∧ (w url).movies.find? (·.id = id) = some movie
  | .radarrMovieHistory url _ id, records => url ≠ "" ∧ records = (w url).movieHistory id
  | .radarrHistory url _ id, records => url ≠ "" ∧ records = ((w url).movieHistory id).take 20
  | .sonarrSeries url _, series => url ≠ "" ∧ series = (w url).series
  | .sonarrSeriesById url _ id, series =>
      url ≠ "" ∧ (w url).series.find? (·.id = id) = some series
  | .sonarrEpisodeFiles url _ seriesId, files => url ≠ "" ∧ files = (w url).filesOf seriesId
  | .sonarrEpisodeFile url _ id, file =>
      url ≠ "" ∧ (w url).episodeFiles.find? (·.id = id) = some file
  | .sonarrEpisodes url _ seriesId, episodes => url ≠ "" ∧ episodes = (w url).episodesOf seriesId
  | .sonarrSeriesHistory url _ seriesId, records =>
      url ≠ "" ∧ records = (w url).seriesHistory seriesId
  | _, _ => True

/-- The answer of a server that is up: what it holds, and nothing at an empty address. -/
def listing {α : Type} (url : String) (body : Option α) : Except Fault (Reply α) :=
  match body with
  | some b => if url = "" then .error .fatal else .ok (.ok b)
  | none => .ok (.failed 404)

/-- The answers when every server is up and every change succeeds. -/
def arrAnswer (w : String → ArrLibrary) : ∀ q : Query, q.Answer
  | .radarrMovies url _ => listing url (some (w url).movies)
  | .radarrMovie url _ id => listing url ((w url).movies.find? (·.id = id))
  | .radarrMovieHistory url _ id => listing url (some ((w url).movieHistory id))
  | .radarrHistory url _ id => listing url (some (((w url).movieHistory id).take 20))
  | .sonarrSeries url _ => listing url (some (w url).series)
  | .sonarrSeriesById url _ id => listing url ((w url).series.find? (·.id = id))
  | .sonarrEpisodeFiles url _ seriesId => listing url (some ((w url).filesOf seriesId))
  | .sonarrEpisodeFile url _ id => listing url ((w url).episodeFiles.find? (·.id = id))
  | .sonarrEpisodes url _ seriesId => listing url (some ((w url).episodesOf seriesId))
  | .sonarrSeriesHistory url _ seriesId => listing url (some ((w url).seriesHistory seriesId))
  | _ => .ok .noContent

theorem of_listing {α : Type} {url : String} {body : Option α} {b : α}
    (h : listing url body = .ok (.ok b)) : url ≠ "" ∧ body = some b := by
  cases body with
  | none => simp [listing] at h
  | some a =>
      simp only [listing] at h
      split_ifs at h with hurl
      cases h
      exact ⟨hurl, rfl⟩

theorem of_listing_some {α : Type} {url : String} {a b : α}
    (h : listing url (some a) = .ok (.ok b)) : url ≠ "" ∧ b = a :=
  (of_listing h).imp_right fun h => (Option.some.inj h).symm

/-- Servers that are up are permitted surroundings. -/
theorem permits_arrAnswer (w : String → ArrLibrary) (q : Query) :
    Permits (ArrHolds w) q (arrAnswer w q) := by
  have hpermits : ∀ a : q.Answer, (∀ b, a = .ok (.ok b) → ArrHolds w q b) →
      Permits (ArrHolds w) q a := by
    intro a ha
    match a with
    | .ok (.ok b) => exact ha b rfl
    | .ok .noContent => trivial
    | .ok (.failed _) => trivial
    | .error _ => trivial
  refine hpermits _ ?_
  cases q with
  | radarrMovies | radarrMovieHistory | radarrHistory => exact fun _ => of_listing_some
  | sonarrSeries | sonarrEpisodeFiles | sonarrEpisodes | sonarrSeriesHistory =>
      exact fun _ => of_listing_some
  | radarrMovie | sonarrSeriesById | sonarrEpisodeFile => exact fun _ => of_listing
  | _ => exact fun _ _ => trivial

/-- A film is located by the path of a file. -/
def ArrLibrary.locatesMovie (lib : ArrLibrary) (filePath : String) : Prop :=
  ∃ movie ∈ lib.movies, movieMatches filePath movie = true

/-- An episode file is located by its path, below the folder of the series that lists it. -/
def ArrLibrary.locatesEpisode (lib : ArrLibrary) (filePath : String) : Prop :=
  ∃ series ∈ lib.series, seriesMatches filePath series = true ∧
    ∃ ef ∈ lib.filesOf series.id, ef.path = filePath

variable {w : String → ArrLibrary} {P : Query → Prop} {C : Prop} {cfg : Config}
  {R : Bool → Prop}

section Rules

variable (hP : ∀ q : Query, q.touches = false → P q)

include hP

/-- Removing a stored film, in terms of what the servers hold. -/
theorem wp_radarrDeleteById_content (radarrId : ℤ) (deleteFiles : Bool)
    (arrServerUrl : Option String) (filePath : String) :
    Prog.wp (Permits (ArrHolds w)) P
        (radarrDeleteById cfg radarrId deleteFiles arrServerUrl filePath) R (fun _ => C) ↔
      match resolveArrServer cfg (getRadarrServers cfg) arrServerUrl with
      | some target =>
          Prog.wp (Permits (ArrHolds w)) P
            (radarrDelete cfg radarrId deleteFiles target.1 target.2) R fun _ => C
      | none => R false ∧ (filePath ≠ "" → ∀ srv ∈ getRadarrServers cfg, srv.base ≠ "" →
          (w srv.base).locatesMovie filePath →
          Prog.wp (Permits (ArrHolds w)) P
            (radarrDelete cfg radarrId deleteFiles srv.target.1 srv.target.2) R fun _ => C) := by
  rw [wp_radarrDeleteById hP]
  cases resolveArrServer cfg (getRadarrServers cfg) arrServerUrl with
  | some target => rfl
  | none =>
      simp only [ArrHolds, and_imp, forall_eq_apply_imp_iff, List.find?_isSome,
        ArrLibrary.locatesMovie]

/-- The frame of Sonarr's removals, in terms of what the servers hold. -/
theorem wp_onSonarrTarget_content (arrServerUrl : Option String) (filePath : String)
    (remove : String → String → Act Bool) :
    Prog.wp (Permits (ArrHolds w)) P (onSonarrTarget cfg "" "" arrServerUrl filePath remove) R
        (fun _ => C) ↔
      match resolveArrServer cfg (getSonarrServers cfg) arrServerUrl with
      | some target => Prog.wp (Permits (ArrHolds w)) P (removeAt remove target) R fun _ => C
      | none => R false ∧ (filePath ≠ "" → ∀ srv ∈ getSonarrServers cfg, srv.base ≠ "" →
          (w srv.base).locatesEpisode filePath →
          Prog.wp (Permits (ArrHolds w)) P (removeAt remove srv.target) R fun _ => C) := by
  rw [wp_onSonarrTarget hP]
  cases resolveArrServer cfg (getSonarrServers cfg) arrServerUrl with
  | some target => rfl
  | none =>
      refine and_congr_right fun _ => forall₃_congr fun _ srv _ => ?_
      constructor
      · rintro h hbase ⟨series, hseries, hmatch, ef, hef, hpath⟩
        refine h _ ⟨hbase, rfl⟩ series hseries hmatch _ ⟨hbase, rfl⟩ ?_
        exact List.find?_isSome.2 ⟨ef, hef, by simpa using hpath⟩
      · rintro h allSeries ⟨hbase, rfl⟩ series hseries hmatch files ⟨-, rfl⟩ hsome
        obtain ⟨ef, hef, hpath⟩ := List.find?_isSome.1 hsome
        exact h hbase ⟨series, hseries, hmatch, ef, hef, by simpa using hpath⟩

end Rules

end Hygie
