/-
**The Sonarr client.**

The functions of `arr_clients/sonarr.py` that the deletion of an episode, a season or a series goes
through, each followed by one lemma that says all it can do.

The three removals find their server in the same way, `sonarrTarget`: the one given, or the one the
row records, or else one that lists a file with the path of the row.  The removals of a season and
of a series are one bulk removal, `sonarrWipe`, of the files that Sonarr lists at that moment.

Main definitions:

* `sonarrFindByPathFull` — the episode file with a path, on the first server that lists one;
* `sonarrDeleteEpisodeFile`, `sonarrDeleteSeason`, `sonarrDeleteSeries` — the removals;
* `sonarrGetSeriesByIdAny` — the series with an identifier, on the first server that has one;
* `sonarrGetTorrentHash`, `sonarrGetTorrentHashesForGroup` — the hashes that the history names.

Main results:

* `searches_sonarrFindByPathFull`, `searches_sonarrGetSeriesByIdAny`,
  `searches_sonarrGetTorrentHash`, `wp_sonarrGetTorrentHashesForGroup` — what the lookups can find;
* `wp_sonarrWipe` — **a bulk removal** asks for the files just listed, and for no others.
-/

import Hygie.ArrShared

set_option relaxedAutoImplicit false
set_option autoImplicit false

namespace Hygie

open PyText

/-! ### Lookups -/

/-- `_sonarr_config`. -/
def sonarrConfig (cfg : Config) : String × String := (rstripSlash cfg.sonarrUrl, cfg.sonarrApiKey)

/-- Address and key of a request, with Sonarr's default. -/
def sonarrCreds (cfg : Config) (url key : String) : String × String :=
  resolveArrCreds url key (sonarrConfig cfg)

/-- `get_sonarr_servers`. -/
def getSonarrServers (cfg : Config) : List ArrServer :=
  getArrServers cfg.sonarrServers (sonarrConfig cfg)

/-- Whether a file lies below the folder of a series. -/
def seriesMatches (filePath : String) (series : SonarrSeries) : Bool :=
  let folder := rstripSlash series.path
  folder ≠ "" && startsWith filePath (folder ++ "/")

/-- `sonarr_find_by_path_full`: identifier, address and key of the first episode file found. -/
def sonarrFindByPathFull (cfg : Config) (filePath : String) :
    Act (Option (ℤ × String × String)) :=
  if filePath = "" then pure none
  else
    Prog.firstSome (fun srv => do
      try
        match ← send (.sonarrSeries srv.base srv.apiKey) with
        | .ok allSeries =>
            Prog.firstSome (fun series =>
              if seriesMatches filePath series then do
                match ← send (.sonarrEpisodeFiles srv.base srv.apiKey series.id) with
                | .ok files =>
                    pure ((files.find? fun ef => ef.path == filePath).map fun ef =>
                      (ef.id, srv.target))
                | _ => pure none
              else pure none) allSeries
        | _ => pure none
      catch _ => pure none) (getSonarrServers cfg)

/-- `sonarr_find_by_path`. -/
def sonarrFindByPath (cfg : Config) (filePath : String) : Act (Option ℤ) := do
  let found ← sonarrFindByPathFull cfg filePath
  pure (found.map Prod.fst)

/-- `sonarr_get_series_by_id`. -/
def sonarrGetSeriesById (cfg : Config) (seriesId : ℤ) (url key : String) :
    Act (Option SonarrSeries) :=
  let creds := sonarrCreds cfg url key
  if Addressable creds seriesId then do
    try
      match ← send (.sonarrSeriesById creds.1 creds.2 seriesId) with
      | .ok series => pure (some series)
      | _ => pure none
    catch _ => pure none
  else pure none

/-- `sonarr_get_series_by_id_any`. -/
def sonarrGetSeriesByIdAny (cfg : Config) (seriesId : ℤ) : Act (Option SonarrSeries) :=
  firstFromServers (getSonarrServers cfg) (sonarrGetSeriesById cfg seriesId)

/-! ### Removals -/

/-- The server of a removal: the given one, or the one the row resolves to, or else the one where
a file is found by the path of the row. -/
def sonarrTarget (cfg : Config) (url key : String) (arrServerUrl : Option String)
    (filePath : String) : Act (Option (String × String)) :=
  if url = "" ∨ key = "" then
    match resolveArrServer cfg (getSonarrServers cfg) arrServerUrl with
    | some target => pure (some target)
    | none => do
        let found ← sonarrFindByPathFull cfg filePath
        pure (found.map Prod.snd)
  else pure (some (url, key))

/-- A removal on a server, if its address and key are known. -/
def removeAt (remove : String → String → Act Bool) (target : String × String) : Act Bool :=
  if target.1 = "" ∨ target.2 = "" then pure false else remove target.1 target.2

/-- The frame of the three removals: nothing is removed unless a server is found. -/
def onSonarrTarget (cfg : Config) (url key : String) (arrServerUrl : Option String)
    (filePath : String) (remove : String → String → Act Bool) : Act Bool := do
  match ← sonarrTarget cfg url key arrServerUrl filePath with
  | none => pure false
  | some target => removeAt remove target

/-- The request of `sonarr_delete_episode_file`. -/
def sonarrDeleteFileAt (episodeFileId : ℤ) (url key : String) : Act Bool :=
  if episodeFileId = 0 then pure false
  else do
    try
      withRetry "sonarr" do
        let r ← send (.sonarrDeleteFile url key episodeFileId)
        pure r.succeeded
    catch _ => pure false

/-- `sonarr_delete_episode_file`. -/
def sonarrDeleteEpisodeFile (cfg : Config) (episodeFileId : ℤ) (url key : String)
    (arrServerUrl : Option String) (filePath : String) : Act Bool :=
  onSonarrTarget cfg url key arrServerUrl filePath (sonarrDeleteFileAt episodeFileId)

/-- `_sonarr_unmonitor_episodes`. -/
def sonarrUnmonitorEpisodes (url key : String) (episodeIds : List ℤ) : Act Unit :=
  if episodeIds = [] then pure ()
  else do
    try
      let _ ← send (.sonarrUnmonitorEpisodes url key episodeIds)
      pure ()
    catch _ => pure ()

/-- The episodes that are stored in one of the given files. -/
def episodesOfFiles (efIds : List ℤ) (episodes : List Episode) : List ℤ :=
  (episodes.filter fun ep => efIds.any fun i => ep.episodeFileId == some i).map Episode.id

/-- `_episode_ids_for_files`. -/
def episodeIdsForFiles (url key : String) (seriesId : ℤ) (efIds : List ℤ) : Act (List ℤ) := do
  match ← send (.sonarrEpisodes url key seriesId) with
  | .ok episodes => pure (episodesOfFiles efIds episodes)
  | _ => pure []

/-- The body of a bulk removal: list the files of the series, delete those in the group at once,
then have Sonarr stop looking for them. -/
def sonarrWipe (inGroup : EpisodeFile → Bool) (unmonitor : List ℤ → Act Unit)
    (url key : String) (seriesId : ℤ) : Act Bool := do
  match ← send (.sonarrEpisodeFiles url key seriesId) with
  | .ok files =>
      let efIds := (files.filter inGroup).map EpisodeFile.id
      if efIds = [] then pure true
      else do
        let dr ← send (.sonarrDeleteFiles url key efIds)
        if dr.succeeded then unmonitor efIds
        pure dr.succeeded
  | _ => pure false

/-- The files of a season. -/
def inSeason (seasonNumber : ℤ) (ef : EpisodeFile) : Bool := ef.seasonNumber == some seasonNumber

/-- The requests of `sonarr_delete_season`; afterwards the episodes are no longer monitored. -/
def sonarrDeleteSeasonAt (seriesId seasonNumber : ℤ) (url key : String) : Act Bool := do
  try
    withRetry "sonarr" (sonarrWipe (inSeason seasonNumber) (fun efIds => do
      let episodeIds ← episodeIdsForFiles url key seriesId efIds
      sonarrUnmonitorEpisodes url key episodeIds) url key seriesId)
  catch _ => pure false

/-- The requests of `sonarr_delete_series`; afterwards the series is no longer monitored. -/
def sonarrDeleteSeriesAt (seriesId : ℤ) (url key : String) : Act Bool := do
  try
    withRetry "sonarr" (sonarrWipe (fun _ => true) (fun _ => do
      match ← send (.sonarrSeriesById url key seriesId) with
      | .ok _ =>
          let _ ← send (.sonarrUnmonitorSeries url key seriesId)
          pure ()
      | _ => pure ()) url key seriesId)
  catch _ => pure false

/-- `sonarr_delete_season`. -/
def sonarrDeleteSeason (cfg : Config) (seriesId seasonNumber : ℤ) (url key : String)
    (arrServerUrl : Option String) (filePath : String) : Act Bool :=
  onSonarrTarget cfg url key arrServerUrl filePath (sonarrDeleteSeasonAt seriesId seasonNumber)

/-- `sonarr_delete_series`. -/
def sonarrDeleteSeries (cfg : Config) (seriesId : ℤ) (url key : String)
    (arrServerUrl : Option String) (filePath : String) : Act Bool :=
  onSonarrTarget cfg url key arrServerUrl filePath (sonarrDeleteSeriesAt seriesId)

/-! ### Torrent hashes -/

/-- `sonarr_get_torrent_hash`: the first usable hash of the history of the series that owns the
episode file. -/
def sonarrGetTorrentHash (cfg : Config) (episodeFileId : ℤ) (url key : String) :
    Act (Option String) :=
  let creds := sonarrCreds cfg url key
  if Addressable creds episodeFileId then do
    try
      match ← send (.sonarrEpisodeFile creds.1 creds.2 episodeFileId) with
      | .ok ef =>
          if ef.seriesId = 0 then pure none
          else do
            match ← send (.sonarrSeriesHistory creds.1 creds.2 ef.seriesId) with
            | .ok records => pure (records.findSome? (usableHash cfg))
            | _ => pure none
      | _ => pure none
    catch _ => pure none
  else pure none

/-- The distinct usable hashes of the records of the given episodes. -/
def groupHashes (cfg : Config) (episodeIds : List ℤ) (records : List HistoryRecord) :
    List String :=
  ((records.filter fun rec => episodeIds.any fun i => rec.episodeId == some i).filterMap
    (usableHash cfg)).dedup

/-- The files of a group: of one season, or of the whole series. -/
def inGroup (seasonNumber : Option ℤ) (ef : EpisodeFile) : Bool :=
  match seasonNumber with
  | some n => inSeason n ef
  | none => true

/-- `sonarr_get_torrent_hashes_for_group`. -/
def sonarrGetTorrentHashesForGroup (cfg : Config) (seriesId : ℤ) (seasonNumber : Option ℤ)
    (url key : String) : Act (List String) :=
  let creds := sonarrCreds cfg url key
  if Addressable creds seriesId then do
    try
      match ← send (.sonarrEpisodeFiles creds.1 creds.2 seriesId) with
      | .ok files =>
          let efIds := (files.filter (inGroup seasonNumber)).map EpisodeFile.id
          if efIds = [] then pure []
          else do
            let episodeIds ← episodeIdsForFiles creds.1 creds.2 seriesId efIds
            if episodeIds = [] then pure []
            else
              match ← send (.sonarrSeriesHistory creds.1 creds.2 seriesId) with
              | .ok records => pure (groupHashes cfg episodeIds records)
              | _ => pure []
      | _ => pure []
    catch _ => pure []
  else pure []

/-! ### What the lookups can find -/

variable {holds : ∀ q : Query, q.Body → Prop} {P : Query → Prop} {C : Prop} {cfg : Config}

section Rules

variable (hP : ∀ q : Query, q.touches = false → P q)

include hP

/-- An episode file found by its path is listed for some matching series of some server. -/
theorem searches_sonarrFindByPathFull (filePath : String) :
    Prog.Searches (Permits holds) P (sonarrFindByPathFull cfg filePath)
      (fun found => filePath ≠ "" ∧ ∃ srv ∈ getSonarrServers cfg, ∃ allSeries,
        holds (.sonarrSeries srv.base srv.apiKey) allSeries ∧
        ∃ series ∈ allSeries, seriesMatches filePath series = true ∧
        ∃ files, holds (.sonarrEpisodeFiles srv.base srv.apiKey series.id) files ∧
        ∃ ef, files.find? (fun ef => ef.path == filePath) = some ef ∧
          (ef.id, srv.target) = found) False := by
  have hfile : ∀ (srv : ArrServer) (series : SonarrSeries),
      Prog.Searches (Permits holds) P
        (if seriesMatches filePath series then do
          match ← send (.sonarrEpisodeFiles srv.base srv.apiKey series.id) with
          | .ok files =>
              pure ((files.find? fun ef => ef.path == filePath).map fun ef => (ef.id, srv.target))
          | _ => pure none
        else pure none) _ _ := fun srv series =>
    Prog.Searches.ite (fun _ => Searches.send (hP _ rfl) (fun _ => rfl) rfl fun _ => rfl)
      fun _ => Prog.Searches.none
  refine Prog.Searches.congr (Prog.Searches.ite (fun _ => Prog.Searches.none) fun _ =>
    Prog.Searches.firstSome fun srv _ => Prog.Searches.tryCatch
      (Searches.sendThen (hP _ rfl) (fun allSeries _ R C hnone hC =>
        (Prog.Searches.firstSome fun series _ => hfile srv series).wp_of_none hnone hC)
        rfl fun _ => rfl)) ?_ ?_
  · intro found
    simp only [Option.map_eq_some_iff, and_false, or_false, false_or, ne_eq]
  · simp

/-- A series found by its identifier is what the server asked reports for it. -/
theorem searches_sonarrGetSeriesById (seriesId : ℤ) (url key : String) :
    Prog.Searches (Permits holds) P (sonarrGetSeriesById cfg seriesId url key)
      (fun series => Addressable (sonarrCreds cfg url key) seriesId ∧
        holds (.sonarrSeriesById (sonarrCreds cfg url key).1 (sonarrCreds cfg url key).2 seriesId)
          series) False := by
  refine Prog.Searches.congr (Prog.Searches.ite (fun _ => Prog.Searches.tryCatch
    (Searches.send (hP (.sonarrSeriesById _ _ seriesId) rfl) (fun _ => rfl) rfl fun _ => rfl))
      fun _ => Prog.Searches.none) ?_ ?_
  · intro series
    simp only [and_false, or_false, Option.some.injEq, exists_eq_right]
  · simp

/-- A series found on any server is reported by one of them. -/
theorem searches_sonarrGetSeriesByIdAny (seriesId : ℤ) :
    Prog.Searches (Permits holds) P (sonarrGetSeriesByIdAny cfg seriesId)
      (fun series => ∃ srv ∈ getSonarrServers cfg,
        Addressable (sonarrCreds cfg srv.base srv.apiKey) seriesId ∧
          holds (.sonarrSeriesById (sonarrCreds cfg srv.base srv.apiKey).1
            (sonarrCreds cfg srv.base srv.apiKey).2 seriesId) series) False :=
  (Prog.Searches.firstSome fun srv _ =>
    searches_sonarrGetSeriesById hP seriesId srv.base srv.apiKey).congr (fun _ => Iff.rfl)
    (by simp)

/-- The hash found for an episode file is the first usable one in the history of the series that
owns the file. -/
theorem searches_sonarrGetTorrentHash (episodeFileId : ℤ) (url key : String) :
    Prog.Searches (Permits holds) P (sonarrGetTorrentHash cfg episodeFileId url key)
      (fun h => Addressable (sonarrCreds cfg url key) episodeFileId ∧
        ∃ ef, holds (.sonarrEpisodeFile (sonarrCreds cfg url key).1 (sonarrCreds cfg url key).2
          episodeFileId) ef ∧ ef.seriesId ≠ 0 ∧
        ∃ records, holds (.sonarrSeriesHistory (sonarrCreds cfg url key).1
          (sonarrCreds cfg url key).2 ef.seriesId) records ∧
          records.findSome? (usableHash cfg) = some h) False := by
  refine Prog.Searches.congr (Prog.Searches.ite (fun _ => Prog.Searches.tryCatch
    (Searches.sendThen (hP (.sonarrEpisodeFile _ _ episodeFileId) rfl) (fun ef _ R C hnone hC =>
      (Prog.Searches.ite (fun _ => Prog.Searches.none) fun _ =>
        Searches.send (hP (.sonarrSeriesHistory _ _ ef.seriesId) rfl)
          (fun _ => rfl) rfl fun _ => rfl).wp_of_none hnone hC) rfl fun _ => rfl)) fun _ =>
            Prog.Searches.none) ?_ ?_
  · intro h
    simp only [and_false, or_false, false_or, ne_eq]
  · simp

/-- The hashes found for a group are those of the episodes stored in its files. -/
theorem wp_sonarrGetTorrentHashesForGroup (seriesId : ℤ) (seasonNumber : Option ℤ)
    (url key : String) {R : List String → Prop} :
    Prog.wp (Permits holds) P
        (sonarrGetTorrentHashesForGroup cfg seriesId seasonNumber url key) R (fun _ => C) ↔
      R [] ∧ (Addressable (sonarrCreds cfg url key) seriesId →
        ∀ files, holds (.sonarrEpisodeFiles (sonarrCreds cfg url key).1 (sonarrCreds cfg url key).2
          seriesId) files →
        ∀ episodes, holds (.sonarrEpisodes (sonarrCreds cfg url key).1 (sonarrCreds cfg url key).2
          seriesId) episodes →
        ∀ records, holds (.sonarrSeriesHistory (sonarrCreds cfg url key).1
          (sonarrCreds cfg url key).2 seriesId) records →
        R (groupHashes cfg (episodesOfFiles ((files.filter (inGroup seasonNumber)).map
          EpisodeFile.id) episodes) records)) := by
  set creds := sonarrCreds cfg url key with hcreds
  have hnone : ∀ episodes records, groupHashes cfg (episodesOfFiles [] episodes) records = [] :=
    fun _ _ => by simp [groupHashes, episodesOfFiles]
  have hempty : ∀ records, groupHashes cfg [] records = [] := fun _ => by simp [groupHashes]
  -- the last of the three questions, then the last two, then all of them
  have hhistory : ∀ episodeIds, Prog.wp (Permits holds) P (do
      if episodeIds = [] then pure []
      else
        match ← send (.sonarrSeriesHistory creds.1 creds.2 seriesId) with
        | .ok records => pure (groupHashes cfg episodeIds records)
        | _ => pure []) R (fun _ => R []) ↔
      R [] ∧ ∀ records, holds (.sonarrSeriesHistory creds.1 creds.2 seriesId) records →
        R (groupHashes cfg episodeIds records) := by
    intro episodeIds
    simp only [Prog.wp_ite, Prog.wp_pure, Prog.wp_bind, wp_send,
      hP (.sonarrSeriesHistory creds.1 creds.2 seriesId) rfl, true_and, forall_const, and_self]
    by_cases h : episodeIds = []
    · simp only [h, hempty, true_implies, not_true_eq_false, false_implies, and_true]
      exact ⟨fun h => ⟨h, fun _ _ => h⟩, And.left⟩
    · simp only [h, false_implies, not_false_eq_true, true_implies, true_and]
      exact ⟨fun h => ⟨h.2, h.1⟩, fun h => ⟨h.2, h.1⟩⟩
  have hgroup : ∀ files : List EpisodeFile, Prog.wp (Permits holds) P (do
      let efIds := (files.filter (inGroup seasonNumber)).map EpisodeFile.id
      if efIds = [] then pure []
      else do
        let episodeIds ← episodeIdsForFiles creds.1 creds.2 seriesId efIds
        if episodeIds = [] then pure []
        else
          match ← send (.sonarrSeriesHistory creds.1 creds.2 seriesId) with
          | .ok records => pure (groupHashes cfg episodeIds records)
          | _ => pure []) R (fun _ => R []) ↔
      R [] ∧ ∀ episodes, holds (.sonarrEpisodes creds.1 creds.2 seriesId) episodes →
        ∀ records, holds (.sonarrSeriesHistory creds.1 creds.2 seriesId) records →
        R (groupHashes cfg (episodesOfFiles ((files.filter (inGroup seasonNumber)).map
          EpisodeFile.id) episodes) records) := by
    intro files
    generalize (files.filter (inGroup seasonNumber)).map EpisodeFile.id = efIds
    rw [Prog.wp_ite, Prog.wp_pure, Prog.wp_bind, episodeIdsForFiles]
    simp only [Prog.wp_bind, wp_send, Prog.wp_pure, hhistory,
      hP (.sonarrEpisodes creds.1 creds.2 seriesId) rfl, true_and, forall_const]
    by_cases h : efIds = []
    · simp only [h, hnone, true_implies, not_true_eq_false, false_implies, and_true]
      exact ⟨fun h => ⟨h, fun _ _ _ _ => h⟩, And.left⟩
    · simp only [h, false_implies, not_false_eq_true, true_implies, true_and, hempty]
      constructor
      · rintro ⟨hall, hR, -⟩
        exact ⟨hR.1, fun episodes hepisodes => (hall episodes hepisodes).2⟩
      · rintro ⟨hR, hall⟩
        exact ⟨fun episodes hepisodes => ⟨hR, hall episodes hepisodes⟩, ⟨hR, fun _ _ => hR⟩,
          ⟨hR, fun _ _ => hR⟩, hR⟩
  simp only [sonarrGetTorrentHashesForGroup, Prog.wp_ite, Prog.wp_pure, Prog.wp_tryCatch]
  rw [← hcreds, Prog.wp_bind, wp_send]
  simp only [Prog.wp_pure, hP (.sonarrEpisodeFiles creds.1 creds.2 seriesId) rfl, true_and,
    forall_const, hgroup]
  constructor
  · rintro ⟨hsend, hskip⟩
    refine ⟨?_, fun haddr files hfiles => ((hsend haddr).1 files hfiles).2⟩
    by_cases haddr : Addressable creds seriesId
    · exact (hsend haddr).2.1
    · exact hskip haddr
  · rintro ⟨hR, hall⟩
    exact ⟨fun haddr => ⟨fun files hfiles => ⟨hR, hall haddr files hfiles⟩, hR, hR, hR⟩,
      fun _ => hR⟩

theorem always_sonarrGetTorrentHashesForGroup (seriesId : ℤ) (seasonNumber : Option ℤ)
    (url key : String) :
    Prog.Always (Permits holds) P
      (sonarrGetTorrentHashesForGroup cfg seriesId seasonNumber url key) :=
  Prog.always_iff_wp.2 ((wp_sonarrGetTorrentHashesForGroup hP seriesId seasonNumber url key).2
    ⟨trivial, fun _ _ _ _ _ _ _ => trivial⟩)

/-! ### What the removals can ask -/

/-- **The frame of the removals**: they happen on the server the row resolves to, or else on one
where a file is found by the path of the row. -/
theorem wp_onSonarrTarget (arrServerUrl : Option String) (filePath : String)
    (remove : String → String → Act Bool) {R : Bool → Prop} :
    Prog.wp (Permits holds) P (onSonarrTarget cfg "" "" arrServerUrl filePath remove) R
        (fun _ => C) ↔
      match resolveArrServer cfg (getSonarrServers cfg) arrServerUrl with
      | some target => Prog.wp (Permits holds) P (removeAt remove target) R fun _ => C
      | none => R false ∧ (filePath ≠ "" → ∀ srv ∈ getSonarrServers cfg, ∀ allSeries,
          holds (.sonarrSeries srv.base srv.apiKey) allSeries →
          ∀ series ∈ allSeries, seriesMatches filePath series = true →
          ∀ files, holds (.sonarrEpisodeFiles srv.base srv.apiKey series.id) files →
          (files.find? fun ef => ef.path == filePath).isSome →
          Prog.wp (Permits holds) P (removeAt remove srv.target) R fun _ => C) := by
  rw [onSonarrTarget, sonarrTarget, if_pos (.inl rfl)]
  cases resolveArrServer cfg (getSonarrServers cfg) arrServerUrl with
  | some target => simp only [Prog.wp_bind, Prog.wp_pure]
  | none =>
      simp only [Prog.wp_bind, searches_sonarrFindByPathFull hP filePath _ C, Prog.wp_pure,
        Option.map_none, Option.map_some, false_implies, and_true]
      refine and_congr_right fun _ => ?_
      constructor
      · intro h hne srv hsrv allSeries hall series hseries hmatch files hfiles hsome
        obtain ⟨ef, hef⟩ := Option.isSome_iff_exists.1 hsome
        exact h (ef.id, srv.target) ⟨hne, srv, hsrv, allSeries, hall, series, hseries, hmatch,
          files, hfiles, ef, hef, rfl⟩
      · rintro h found ⟨hne, srv, hsrv, allSeries, hall, series, hseries, hmatch, files, hfiles,
          ef, hef, rfl⟩
        exact h hne srv hsrv allSeries hall series hseries hmatch files hfiles (by simp [hef])

theorem wp_sonarrDeleteFileAt (episodeFileId : ℤ) (url key : String) {R : Bool → Prop} :
    Prog.wp (Permits holds) P (sonarrDeleteFileAt episodeFileId url key) R (fun _ => C) ↔
      R false ∧ (episodeFileId ≠ 0 →
        P (.sonarrDeleteFile url key episodeFileId) ∧ R true) := by
  have hrequest := @wp_guardedRequest holds P _
    (hP (.breaker "sonarr") rfl) (.sonarrDeleteFile url key episodeFileId) R C
  rw [sonarrDeleteFileAt, Prog.wp_ite, hrequest, Prog.wp_pure]
  tauto

/-- **A bulk removal** asks for the files of the group that were just listed, all at once, and for
no others.  The clean-up after it may fail, and then the whole is taken for a failure. -/
theorem wp_sonarrWipe {inGroup : EpisodeFile → Bool} {unmonitor : List ℤ → Act Unit}
    (hunmonitor : ∀ ids (R : Unit → Prop) (C : Prop),
      Prog.wp (Permits holds) P (unmonitor ids) R (fun _ => C) ↔ R () ∧ C)
    (url key : String) (seriesId : ℤ) {R : Bool → Prop} :
    Prog.wp (Permits holds) P
        (do try withRetry "sonarr" (sonarrWipe inGroup unmonitor url key seriesId)
            catch _ => pure false) R (fun _ => C) ↔
      R false ∧ ∀ files, holds (.sonarrEpisodeFiles url key seriesId) files →
        if (files.filter inGroup).map EpisodeFile.id = [] then R true
        else P (.sonarrDeleteFiles url key ((files.filter inGroup).map EpisodeFile.id)) ∧
          R true := by
  have hbreaker : P (.breaker "sonarr") := hP _ rfl
  have hfiles : P (.sonarrEpisodeFiles url key seriesId) := hP _ rfl
  have hbody : Prog.wp (Permits holds) P (sonarrWipe inGroup unmonitor url key seriesId) R
      (fun _ => R false) ↔ R false ∧ ∀ files, holds (.sonarrEpisodeFiles url key seriesId) files →
        if (files.filter inGroup).map EpisodeFile.id = [] then R true
        else P (.sonarrDeleteFiles url key ((files.filter inGroup).map EpisodeFile.id)) ∧
          R true := by
    simp only [sonarrWipe, Prog.wp_bind, wp_send, Prog.wp_pure, Reply.succeeded, hfiles, true_and,
      forall_const]
    constructor
    · rintro ⟨hall, hfalse, -⟩
      refine ⟨hfalse, fun files hholds => ?_⟩
      have := hall files hholds
      split_ifs at this ⊢ with hempty
      · simpa using this
      · simp only [Prog.wp_bind, wp_send, Prog.wp_pure, hunmonitor, ↓reduceIte] at this
        exact ⟨this.1, this.2.2.1.1⟩
    · rintro ⟨hfalse, hall⟩
      refine ⟨fun files hholds => ?_, hfalse, hfalse, hfalse⟩
      have := hall files hholds
      split_ifs at this ⊢ with hempty
      · simpa using this
      · simp only [Prog.wp_bind, wp_send, Prog.wp_pure, hunmonitor, ↓reduceIte,
          Bool.false_eq_true, this, hfalse, and_self, implies_true]
  simp only [Prog.wp_tryCatch, wp_withRetry, Prog.wp_pure, hbreaker, true_and, hbody]
  tauto

theorem wp_sonarrUnmonitorEpisodes (url key : String) (episodeIds : List ℤ) {R : Unit → Prop} :
    Prog.wp (Permits holds) P (sonarrUnmonitorEpisodes url key episodeIds) R (fun _ => C) ↔
      R () := by
  have hput : P (.sonarrUnmonitorEpisodes url key episodeIds) := hP _ rfl
  rw [sonarrUnmonitorEpisodes]
  split_ifs with h
  · simp
  · simp only [Prog.wp_tryCatch, Prog.wp_bind, wp_send, Prog.wp_pure, hput, forall_const, true_and]
    tauto

theorem wp_sonarrDeleteSeasonAt (seriesId seasonNumber : ℤ) (url key : String)
    {R : Bool → Prop} :
    Prog.wp (Permits holds) P (sonarrDeleteSeasonAt seriesId seasonNumber url key) R (fun _ => C) ↔
      R false ∧ ∀ files, holds (.sonarrEpisodeFiles url key seriesId) files →
        if (files.filter (inSeason seasonNumber)).map EpisodeFile.id = [] then R true
        else P (.sonarrDeleteFiles url key
            ((files.filter (inSeason seasonNumber)).map EpisodeFile.id)) ∧ R true := by
  refine wp_sonarrWipe hP (fun ids R C => ?_) url key seriesId
  have hepisodes : P (.sonarrEpisodes url key seriesId) := hP _ rfl
  simp only [episodeIdsForFiles, Prog.wp_bind, wp_send, Prog.wp_pure,
    wp_sonarrUnmonitorEpisodes hP, hepisodes, true_and, forall_const]
  tauto

theorem wp_sonarrDeleteSeriesAt (seriesId : ℤ) (url key : String) {R : Bool → Prop} :
    Prog.wp (Permits holds) P (sonarrDeleteSeriesAt seriesId url key) R (fun _ => C) ↔
      R false ∧ ∀ files, holds (.sonarrEpisodeFiles url key seriesId) files →
        if (files.filter fun _ => true).map EpisodeFile.id = [] then R true
        else P (.sonarrDeleteFiles url key
            ((files.filter fun _ => true).map EpisodeFile.id)) ∧ R true := by
  refine wp_sonarrWipe hP (fun ids R C => ?_) url key seriesId
  have hseries : P (.sonarrSeriesById url key seriesId) := hP _ rfl
  have hput : P (.sonarrUnmonitorSeries url key seriesId) := hP _ rfl
  simp only [Prog.wp_bind, wp_send, Prog.wp_pure, hseries, hput, true_and, forall_const]
  tauto

end Rules

end Hygie
