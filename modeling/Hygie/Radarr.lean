/-
**The Radarr client.**

The functions of `arr_clients/radarr.py` that the deletion of a film goes through, each followed by
one lemma that says all it can do: what it asks, what it can return, and that it never raises.

Main definitions:

* `radarrFindByPath` — the film a file belongs to, on the first server that lists one;
* `radarrDelete`, `radarrDeleteById` — removing a film;
* `radarrGetTorrentHash`, `radarrGetTorrentHashAny` — the hash its download history names.

Main results:

* `searches_radarrFindByPath`, `searches_radarrGetTorrentHashAny` — what the lookups can find;
* `wp_radarrDelete`, `wp_radarrDeleteById` — what the removals can ask and return.
-/

import Hygie.ArrShared

set_option relaxedAutoImplicit false
set_option autoImplicit false

namespace Hygie

open PyText

/-! ### The client -/

/-- `_radarr_config`. -/
def radarrConfig (cfg : Config) : String × String := (rstripSlash cfg.radarrUrl, cfg.radarrApiKey)

/-- Address and key of a request, with Radarr's default. -/
def radarrCreds (cfg : Config) (url key : String) : String × String :=
  resolveArrCreds url key (radarrConfig cfg)

/-- `get_radarr_servers`. -/
def getRadarrServers (cfg : Config) : List ArrServer :=
  getArrServers cfg.radarrServers (radarrConfig cfg)

/-- Whether a film is the one a file belongs to. -/
def movieMatches (filePath : String) (movie : RadarrMovie) : Bool :=
  pathMatches filePath movie.filePath movie.path

/-- `radarr_find_by_path`: identifier, address and key of the first film found. -/
def radarrFindByPath (cfg : Config) (filePath : String) :
    Act (Option (ℤ × String × String)) :=
  if filePath = "" then pure none
  else
    Prog.firstSome (fun srv => do
      try
        match ← send (.radarrMovies srv.base srv.apiKey) with
        | .ok movies =>
            pure ((movies.find? (movieMatches filePath)).map fun m => (m.id, srv.target))
        | _ => pure none
      catch _ => pure none) (getRadarrServers cfg)

/-- `radarr_get`. -/
def radarrGet (cfg : Config) (radarrId : ℤ) (url key : String) : Act (Option RadarrMovie) :=
  let creds := radarrCreds cfg url key
  if Addressable creds radarrId then do
    try
      match ← send (.radarrMovie creds.1 creds.2 radarrId) with
      | .ok movie => pure (some movie)
      | _ => pure none
    catch _ => pure none
  else pure none

/-- `radarr_get_any`. -/
def radarrGetAny (cfg : Config) (radarrId : ℤ) : Act (Option RadarrMovie) :=
  firstFromServers (getRadarrServers cfg) (radarrGet cfg radarrId)

/-- `radarr_delete`. -/
def radarrDelete (cfg : Config) (radarrId : ℤ) (deleteFiles : Bool) (url key : String) :
    Act Bool :=
  let creds := radarrCreds cfg url key
  if Addressable creds radarrId then do
    try
      withRetry "radarr" do
        let r ← send (.radarrDelete creds.1 creds.2 radarrId deleteFiles)
        pure r.succeeded
    catch _ => pure false
  else pure false

/-- The first usable hash of a history. -/
def historyHash (cfg : Config) (q : Query) (records : q.Body → List HistoryRecord) :
    Act (Option String) := do
  match ← send q with
  | .ok body => pure ((records body).findSome? (usableHash cfg))
  | _ => pure none

/-- `radarr_get_torrent_hash`: the history of the film, then the general history. -/
def radarrGetTorrentHash (cfg : Config) (radarrId : ℤ) (url key : String) :
    Act (Option String) :=
  let creds := radarrCreds cfg url key
  if Addressable creds radarrId then do
    try
      withRetry "radarr" do
        match ← historyHash cfg (.radarrMovieHistory creds.1 creds.2 radarrId) id with
        | some dlId => pure (some dlId)
        | none => historyHash cfg (.radarrHistory creds.1 creds.2 radarrId) id
    catch _ => pure none
  else pure none

/-- `radarr_get_torrent_hash_any`. -/
def radarrGetTorrentHashAny (cfg : Config) (radarrId : ℤ) : Act (Option String) :=
  firstFromServers (getRadarrServers cfg) (radarrGetTorrentHash cfg radarrId)

/-- `radarr_delete_by_id`: on the server the row records, or else on the one where a film is found
by the path of the file. -/
def radarrDeleteById (cfg : Config) (radarrId : ℤ) (deleteFiles : Bool)
    (arrServerUrl : Option String) (filePath : String) : Act Bool := do
  match resolveArrServer cfg (getRadarrServers cfg) arrServerUrl with
  | some target => radarrDelete cfg radarrId deleteFiles target.1 target.2
  | none =>
      match ← radarrFindByPath cfg filePath with
      | some found => radarrDelete cfg radarrId deleteFiles found.2.1 found.2.2
      | none => pure false

/-! ### What it can do -/

variable {holds : ∀ q : Query, q.Body → Prop} {P : Query → Prop} {C : Prop} {cfg : Config}

theorem searches_historyHash {q : Query} (hq : P q) (records : q.Body → List HistoryRecord) :
    Prog.Searches (Permits holds) P (historyHash cfg q records)
      (fun h => ∃ b, holds q b ∧ (records b).findSome? (usableHash cfg) = some h) True :=
  Searches.send hq (fun _ => rfl) rfl fun _ => rfl

section Rules

variable (hP : ∀ q : Query, q.touches = false → P q)

include hP

/-- A film found by the path of a file is the first match in the listing of some server. -/
theorem searches_radarrFindByPath (filePath : String) :
    Prog.Searches (Permits holds) P (radarrFindByPath cfg filePath)
      (fun found => filePath ≠ "" ∧ ∃ srv ∈ getRadarrServers cfg, ∃ movies movie,
        holds (.radarrMovies srv.base srv.apiKey) movies ∧
          movies.find? (movieMatches filePath) = some movie ∧
          (movie.id, srv.target) = found) False := by
  refine Prog.Searches.congr (Prog.Searches.ite (fun _ => Prog.Searches.none) fun _ =>
    Prog.Searches.firstSome fun srv _ => Prog.Searches.tryCatch
      (Searches.send (hP _ rfl) (fun _ => rfl) rfl fun _ => rfl)) ?_ ?_
  · intro found
    simp only [Option.map_eq_some_iff]
    constructor
    · rintro (⟨-, ⟨⟩⟩ | ⟨hne, srv, hsrv, movies, hmovies, movie, hfind, rfl⟩)
      exact ⟨hne, srv, hsrv, movies, movie, hmovies, hfind, rfl⟩
    · rintro ⟨hne, srv, hsrv, movies, movie, hmovies, hfind, rfl⟩
      exact .inr ⟨hne, srv, hsrv, movies, hmovies, movie, hfind, rfl⟩
  · simp

/-- A film found by its identifier is what some server reports for it. -/
theorem searches_radarrGetAny (radarrId : ℤ) :
    Prog.Searches (Permits holds) P (radarrGetAny cfg radarrId)
      (fun movie => ∃ srv ∈ getRadarrServers cfg,
        Addressable (radarrCreds cfg srv.base srv.apiKey) radarrId ∧
          holds (.radarrMovie (radarrCreds cfg srv.base srv.apiKey).1
            (radarrCreds cfg srv.base srv.apiKey).2 radarrId) movie) False := by
  refine Prog.Searches.congr (Prog.Searches.firstSome fun srv _ => Prog.Searches.ite
    (fun _ => Prog.Searches.tryCatch (Searches.send (hP (.radarrMovie _ _ radarrId) rfl)
      (fun _ => rfl) rfl fun _ => rfl)) fun _ => Prog.Searches.none) ?_ ?_
  · intro movie
    simp only [and_false, or_false, Option.some.injEq, exists_eq_right]
  · simp

/-- A hash of the history of a film is the first usable one of one of its two listings. -/
theorem searches_radarrGetTorrentHash (radarrId : ℤ) (url key : String) :
    Prog.Searches (Permits holds) P (radarrGetTorrentHash cfg radarrId url key)
      (fun h => Addressable (radarrCreds cfg url key) radarrId ∧ ∃ records,
        (holds (.radarrMovieHistory (radarrCreds cfg url key).1 (radarrCreds cfg url key).2
            radarrId) records ∨
          holds (.radarrHistory (radarrCreds cfg url key).1 (radarrCreds cfg url key).2
            radarrId) records) ∧
        records.findSome? (usableHash cfg) = some h) False := by
  set creds := radarrCreds cfg url key with hcreds
  have hfirst := @searches_historyHash holds P cfg _
    (hP (.radarrMovieHistory creds.1 creds.2 radarrId) rfl) id
  have hsecond := @searches_historyHash holds P cfg _
    (hP (.radarrHistory creds.1 creds.2 radarrId) rfl) id
  refine Prog.Searches.congr (Prog.Searches.ite (fun _ =>
    Prog.Searches.tryCatch (Searches.withRetry (hP (.breaker "radarr") rfl)
      (Prog.Searches.orElse hfirst (by exact hsecond) fun _ => rfl))) fun _ =>
        Prog.Searches.none) ?_ ?_
  · intro h
    simp only [and_false, or_false, id, ← exists_or, ← or_and_right]
    rfl
  · simp

/-- A hash found on any server is found on one of them. -/
theorem searches_radarrGetTorrentHashAny (radarrId : ℤ) :
    Prog.Searches (Permits holds) P (radarrGetTorrentHashAny cfg radarrId)
      (fun h => ∃ srv ∈ getRadarrServers cfg,
        Addressable (radarrCreds cfg srv.base srv.apiKey) radarrId ∧ ∃ records,
          (holds (.radarrMovieHistory (radarrCreds cfg srv.base srv.apiKey).1
              (radarrCreds cfg srv.base srv.apiKey).2 radarrId) records ∨
            holds (.radarrHistory (radarrCreds cfg srv.base srv.apiKey).1
              (radarrCreds cfg srv.base srv.apiKey).2 radarrId) records) ∧
          records.findSome? (usableHash cfg) = some h) False :=
  (Prog.Searches.firstSome fun srv _ =>
    searches_radarrGetTorrentHash hP radarrId srv.base srv.apiKey).congr (fun _ => Iff.rfl)
    (by simp)

/-- **Removing a film**: one request to the given server, or to the default one when an address or
key is missing; every failure is `False`. -/
theorem wp_radarrDelete (radarrId : ℤ) (deleteFiles : Bool) (url key : String)
    {R : Bool → Prop} :
    Prog.wp (Permits holds) P (radarrDelete cfg radarrId deleteFiles url key) R (fun _ => C) ↔
      R false ∧ (Addressable (radarrCreds cfg url key) radarrId →
        P (.radarrDelete (radarrCreds cfg url key).1 (radarrCreds cfg url key).2 radarrId
          deleteFiles) ∧ R true) := by
  have hrequest := @wp_guardedRequest holds P _
    (hP (.breaker "radarr") rfl) (.radarrDelete (radarrCreds cfg url key).1
      (radarrCreds cfg url key).2 radarrId deleteFiles) R C
  rw [radarrDelete, Prog.wp_ite, hrequest, Prog.wp_pure]
  tauto

theorem always_radarrDelete (hdelete : ∀ url key id files, P (.radarrDelete url key id files))
    (radarrId : ℤ) (deleteFiles : Bool) (url key : String) :
    Prog.Always (Permits holds) P (radarrDelete cfg radarrId deleteFiles url key) :=
  Prog.always_iff_wp.2 ((wp_radarrDelete hP radarrId deleteFiles url key).2
    ⟨trivial, fun _ => ⟨hdelete _ _ _ _, trivial⟩⟩)

/-- **Removing a stored film**: on the server the row resolves to, or else on one where a film is
found by the path of the file; always under the stored identifier. -/
theorem wp_radarrDeleteById (radarrId : ℤ) (deleteFiles : Bool) (arrServerUrl : Option String)
    (filePath : String) {R : Bool → Prop} :
    Prog.wp (Permits holds) P (radarrDeleteById cfg radarrId deleteFiles arrServerUrl filePath) R
        (fun _ => C) ↔
      match resolveArrServer cfg (getRadarrServers cfg) arrServerUrl with
      | some target =>
          Prog.wp (Permits holds) P (radarrDelete cfg radarrId deleteFiles target.1 target.2) R
            fun _ => C
      | none => R false ∧ (filePath ≠ "" → ∀ srv ∈ getRadarrServers cfg, ∀ movies,
          holds (.radarrMovies srv.base srv.apiKey) movies →
          (movies.find? (movieMatches filePath)).isSome →
          Prog.wp (Permits holds) P
            (radarrDelete cfg radarrId deleteFiles srv.target.1 srv.target.2) R fun _ => C) := by
  rw [radarrDeleteById]
  cases resolveArrServer cfg (getRadarrServers cfg) arrServerUrl with
  | some target => rfl
  | none =>
      simp only [Prog.wp_bind, searches_radarrFindByPath hP filePath _ C, Prog.wp_pure,
        false_implies, and_true]
      refine and_congr_right fun _ => ?_
      constructor
      · intro h hne srv hsrv movies hmovies hsome
        obtain ⟨movie, hmovie⟩ := Option.isSome_iff_exists.1 hsome
        exact h (movie.id, srv.target) ⟨hne, srv, hsrv, movies, movie, hmovies, hmovie, rfl⟩
      · rintro h found ⟨hne, srv, hsrv, movies, movie, hmovies, hmovie, rfl⟩
        exact h hne srv hsrv movies hmovies (by simp [hmovie])

end Rules

end Hygie
