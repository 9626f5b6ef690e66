/-
**The path cache of Radarr against the search on the servers.**

A scan reads the listings of all Radarr servers once, into a dictionary from the paths of the films
to identifier, address and key, and then looks its files up there.  The deletion searches the
listings themselves.  The dictionary is asked for the file first and then for a directory above it,
and a path that is listed twice has the entry of the film that came last; the search takes the first
film that the file belongs to.

Main definitions:

* `buildRadarrPathCache`, `radarrFindByPathCached` — the cache, and a lookup in it;
* `serveMovies` — servers that list the same films whenever they are asked;
* `decidingPath`, `lastListed`, `SameFilm` — what the two lookups go by.

Main results:

* `radarrFindByPathCached_build` — **a lookup in the cache finds the last film listed under the
  deciding path**;
* `radarrFindByPathCached_eq_iff` — **it agrees with the search just when that film is the first
  one that the file belongs to**.
-/

import Hygie.OrderedDict
import Hygie.ServiceState

set_option relaxedAutoImplicit false
set_option autoImplicit false

namespace Hygie

open PyText

/-! ### The cache -/

/-- Identifier, address and key. -/
abbrev RadarrEntry := ℤ × String × String

/-- The body of the loop of `build_radarr_path_cache`: one film of the server at `target`. -/
def cacheMovie (target : String × String) (cache : List (String × RadarrEntry))
    (movie : RadarrMovie) : List (String × RadarrEntry) :=
  if movie.id = 0 then cache
  else
    let entry := (movie.id, target)
    let withFile :=
      if movie.filePath = "" then cache else OrderedDict.assign cache (movie.filePath, entry)
    let folder := rstripSlash movie.path
    if folder = "" then withFile else OrderedDict.assign withFile (folder, entry)

/-- The listing of a server, `[]` for another status than 200. -/
def fetchMovies (srv : ArrServer) : Act (List RadarrMovie) := do
  match ← send (.radarrMovies srv.base srv.apiKey) with
  | .ok movies => pure movies
  | _ => pure []

/-- The films of one server; none where its listing fails. -/
def cacheServer (cache : List (String × RadarrEntry)) (srv : ArrServer) :
    Act (List (String × RadarrEntry)) := do
  try
    let movies ← withRetry "radarr" (fetchMovies srv)
    pure (movies.foldl (cacheMovie srv.target) cache)
  catch _ => pure cache

/-- `build_radarr_path_cache`. -/
def buildRadarrPathCache (cfg : Config) : Act (List (String × RadarrEntry)) :=
  (getRadarrServers cfg).foldlM cacheServer []

/-- `radarr_find_by_path_cached`. -/
def radarrFindByPathCached (filePath : String) (cache : List (String × RadarrEntry)) :
    Option RadarrEntry :=
  if filePath = "" ∨ cache = [] then none
  else
    match OrderedDict.value cache filePath with
    | some entry => some entry
    | none => (cache.find? fun e => startsWith filePath (e.1 ++ "/")).map Prod.snd

/-! ### Servers that list the same films -/

/-- What a server answers when it is asked for its films. -/
abbrev Listing := Except Fault (Reply (List RadarrMovie))

/-- The films that an answer lists. -/
def Listing.movies : Listing → List RadarrMovie
  | .ok (.ok movies) => movies
  | _ => []

/-- The servers, by address and key; the breakers are closed. -/
def serveMovies (listing : String → String → Listing) : ∀ q : Query, Unit → q.Answer × Unit
  | .breaker _, s => (.ok .noContent, s)
  | .radarrMovies url key, s => (listing url key, s)
  | _, s => (.error .fatal, s)

/-- A film with the address and key of the server that lists it. -/
abbrev Film := RadarrMovie × String × String

/-- What a lookup returns for a film. -/
def Film.entry (film : Film) : RadarrEntry := (film.1.id, film.2)

/-- The films that the servers list, in their order. -/
def listedFilms (listing : String → String → Listing) (servers : List ArrServer) : List Film :=
  servers.flatMap fun srv => (listing srv.base srv.apiKey).movies.map fun movie => (movie,
    srv.target)

/-! ### What the lookups go by -/

/-- The paths under which the cache lists a film: its file and its folder. -/
def listedPaths (movie : RadarrMovie) : List String :=
  if movie.id = 0 then []
  else
    (if movie.filePath = "" then [] else [movie.filePath]) ++
      (if rstripSlash movie.path = "" then [] else [rstripSlash movie.path])

/-- The listed path that decides about a file: its own or else the first one of a directory above
it. -/
def decidingPath (films : List Film) (filePath : String) : Option String :=
  let listed := films.flatMap fun film => listedPaths film.1
  if filePath ∈ listed then some filePath
  else listed.find? fun path => startsWith filePath (path ++ "/")

/-- The last film that is listed under a path. -/
def lastListed (films : List Film) (path : String) : Option Film :=
  films.reverse.find? fun film => path ∈ listedPaths film.1

/-- The cache and the search go by the same film. -/
structure SameFilm (films : List Film) (filePath : String) : Prop where
  /-- A path decides about the file just when the file belongs to a film. -/
  listed : (decidingPath films filePath).isSome = true ↔
    ∃ film ∈ films, movieMatches filePath film.1 = true
  /-- The last film listed under that path is the first one that the file belongs to. -/
  same : ∀ path ∈ decidingPath films filePath, ∀ last ∈ lastListed films path,
    ∀ first ∈ films.find? (fun film => movieMatches filePath film.1), last.entry = first.entry

variable {listing : String → String → Listing} {films : List Film} {filePath path : String}
  {film : Film}

/-! ### The cache as writes -/

/-- The entries that the cache is given for a film. -/
def Film.writes (film : Film) : List (String × RadarrEntry) :=
  (listedPaths film.1).map fun path => (path, film.entry)

theorem cacheMovie_eq (film : Film) (cache : List (String × RadarrEntry)) :
    cacheMovie film.2 cache film.1 = film.writes.foldl OrderedDict.assign cache := by
  simp only [cacheMovie, Film.writes, listedPaths]
  split_ifs <;> rfl

theorem foldl_cacheMovie (films : List Film) (cache : List (String × RadarrEntry)) :
    films.foldl (fun cache film => cacheMovie film.2 cache film.1) cache =
      (films.flatMap Film.writes).foldl OrderedDict.assign cache := by
  induction films generalizing cache with
  | nil => rfl
  | cons film films ih =>
      rw [List.foldl_cons, List.flatMap_cons, List.foldl_append, ih, cacheMovie_eq]

/-- The keys that are written are the listed paths. -/
theorem keys_writes : (films.flatMap Film.writes).map Prod.fst =
    films.flatMap fun film => listedPaths film.1 := by
  rw [List.map_flatMap]
  refine List.flatMap_congr fun film _ => ?_
  rw [Film.writes, List.map_map]
  exact List.map_id _

/-- A film writes the same entry under each of its paths. -/
theorem value_reverse_writes : OrderedDict.value film.writes.reverse path =
    if path ∈ listedPaths film.1 then some film.entry else none := by
  have hkey : ((fun e : String × RadarrEntry => decide (e.1 = path)) ∘
      fun path => (path, film.entry)) = fun listed => decide (listed = path) := rfl
  rw [OrderedDict.value, Film.writes, ← List.map_reverse, List.find?_map, hkey]
  cases hfind : (listedPaths film.1).reverse.find? fun listed => decide (listed = path) with
  | some listed =>
      have heq : listed = path := by simpa using List.find?_some hfind
      have hmem := List.mem_reverse.1 (List.mem_of_find?_eq_some hfind)
      rw [if_pos (heq ▸ hmem)]
      rfl
  | none =>
      have hmem : ¬ path ∈ listedPaths film.1 := fun hmem =>
        List.find?_eq_none.1 hfind path (List.mem_reverse.2 hmem) (decide_eq_true rfl)
      rw [if_neg hmem]
      rfl

/-- **The value under a path is that of the last film listed there.** -/
theorem value_writes : OrderedDict.value (OrderedDict.ofWrites (films.flatMap Film.writes)) path =
    (lastListed films path).map Film.entry := by
  rw [OrderedDict.value_ofWrites, lastListed]
  induction films with
  | nil => rfl
  | cons film films ih =>
      rw [List.flatMap_cons, List.reverse_append, OrderedDict.value_append_list, ih,
        value_reverse_writes, List.reverse_cons, List.find?_append, List.find?_singleton,
        Option.map_or]
      by_cases hmem : path ∈ listedPaths film.1
      · rw [if_pos hmem, if_pos (decide_eq_true hmem)]
        rfl
      · rw [if_neg hmem, if_neg (by simpa using hmem)]
        rfl

theorem lastListed_isSome : (lastListed films path).isSome = true ↔
    path ∈ films.flatMap fun film => listedPaths film.1 := by
  rw [lastListed, List.find?_isSome, List.mem_flatMap]
  refine exists_congr fun film => ?_
  rw [List.mem_reverse, decide_eq_true_iff]

/-! ### The two lookups -/

/-- The empty path is below no directory. -/
theorem startsWith_empty_slash (dir : String) : startsWith "" (dir ++ "/") = false := by
  rw [Bool.eq_false_iff]
  intro hstarts
  obtain ⟨rest, hrest⟩ := startsWith_iff.1 hstarts
  have hchars := congrArg String.toList hrest
  simp at hchars

/-- The empty path belongs to no film. -/
theorem movieMatches_empty (movie : RadarrMovie) : movieMatches "" movie = false := by
  rw [movieMatches, pathMatches, startsWith_empty_slash, Bool.and_false, Bool.or_false]
  by_cases hfile : movie.filePath = ""
  · rw [decide_eq_false (not_not.2 hfile), Bool.false_and]
  · rw [beq_false_of_ne hfile, Bool.and_false]

/-- No path is listed under the empty text. -/
theorem ne_empty_of_mem_listedPaths {movie : RadarrMovie} (h : path ∈ listedPaths movie) :
    path ≠ "" := by
  rw [listedPaths] at h
  split_ifs at h with hid hfile hfolder hfolder
  · cases h
  · cases h
  · exact List.mem_singleton.1 h ▸ hfolder
  · exact List.mem_singleton.1 h ▸ hfile
  · rcases List.mem_pair.1 h with rfl | rfl
    · exact hfile
    · exact hfolder

theorem decidingPath_empty : decidingPath films "" = none := by
  have hlisted : ¬ "" ∈ films.flatMap fun film => listedPaths film.1 := by
    rw [List.mem_flatMap]
    rintro ⟨film, -, hmem⟩
    exact ne_empty_of_mem_listedPaths hmem rfl
  rw [decidingPath, if_neg hlisted, List.find?_eq_none]
  intro dir _
  rw [startsWith_empty_slash]
  exact Bool.false_ne_true

/-- **A lookup in the cache**: the last film that is listed under the deciding path. -/
theorem radarrFindByPathCached_ofWrites :
    radarrFindByPathCached filePath (OrderedDict.ofWrites (films.flatMap Film.writes)) =
      (decidingPath films filePath).bind fun path => (lastListed films path).map Film.entry := by
  by_cases hempty : filePath = ""
  · rw [hempty, decidingPath_empty, radarrFindByPathCached, if_pos (.inl rfl)]
    rfl
  rw [radarrFindByPathCached, decidingPath]
  by_cases hlisted : filePath ∈ films.flatMap fun film => listedPaths film.1
  · obtain ⟨last, hlast⟩ := Option.isSome_iff_exists.1 (lastListed_isSome.2 hlisted)
    have hvalue := @value_writes films filePath
    rw [hlast] at hvalue
    have hsome : ¬ (filePath = "" ∨ OrderedDict.ofWrites (films.flatMap Film.writes) = []) := by
      rintro (hnone | hnone)
      · exact hempty hnone
      · rw [hnone] at hvalue
        cases hvalue
    rw [if_neg hsome, hvalue, if_pos hlisted, Option.bind_some, hlast]
    rfl
  · have hvalue : OrderedDict.value (OrderedDict.ofWrites (films.flatMap Film.writes)) filePath =
        none := by
      rw [value_writes, Option.map_eq_none_iff, ← Option.not_isSome_iff_eq_none, lastListed_isSome]
      exact hlisted
    have hfind : ((OrderedDict.ofWrites (films.flatMap Film.writes)).find? fun e =>
        startsWith filePath (e.1 ++ "/")).map Prod.snd =
        ((films.flatMap fun film => listedPaths film.1).find? fun path =>
          startsWith filePath (path ++ "/")).bind fun path =>
            (lastListed films path).map Film.entry := by
      rw [OrderedDict.find?_eq (P := fun path => startsWith filePath (path ++ "/")),
        OrderedDict.find?_keys_ofWrites, keys_writes]
      exact congrArg _ (funext fun path => value_writes)
    rw [if_neg hlisted, ← hfind, hvalue]
    split_ifs with hnone
    · rw [hnone.resolve_left hempty]
      rfl
    · rfl

/-- The search: the first film that the file belongs to. -/
theorem exec_radarrFindByPath_serveMovies (cfg : Config) :
    Prog.exec (serveMovies listing) (radarrFindByPath cfg filePath) () =
      (.ok (((listedFilms listing (getRadarrServers cfg)).find? fun film =>
        movieMatches filePath film.1).map Film.entry), ()) := by
  rw [radarrFindByPath]
  split_ifs with hempty
  · rw [List.find?_eq_none.2 fun film _ => by
      rw [hempty, movieMatches_empty]
      exact Bool.false_ne_true]
    rfl
  · refine (Prog.exec_firstSome (g := fun srv => ((listing srv.base srv.apiKey).movies.find?
      (movieMatches filePath)).map fun m => (m.id, srv.target)) fun srv _ => ?_).trans ?_
    · rcases hlisting : listing srv.base srv.apiKey with fault | reply
      · rw [Prog.exec_tryCatch_error (Prog.exec_bind_error (exec_send_error (by
          rw [serveMovies, hlisting])))]
        rfl
      · refine Prog.exec_tryCatch_ok ?_
        rw [Prog.exec_bind_ok (exec_send_ok (by rw [serveMovies, hlisting]))]
        cases reply <;> rfl
    · rw [listedFilms, List.find?_flatMap, List.map_findSome?]
      refine congrArg (fun search => (Except.ok ((getRadarrServers cfg).findSome? search), ()))
        (funext fun srv => ?_)
      rw [Function.comp_apply, List.find?_map, Option.map_map]
      rfl

/-- The listing behind its retries. -/
theorem exec_fetchMovies (srv : ArrServer) :
    Prog.exec (serveMovies listing) (withRetry "radarr" (fetchMovies srv)) () =
      (match listing srv.base srv.apiKey with
        | .ok _ => .ok (listing srv.base srv.apiKey).movies
        | .error e => .error e, ()) := by
  have hbreaker : Prog.exec (serveMovies listing) (send (.breaker "radarr")) () =
      (.ok .noContent, ()) := exec_send_ok rfl
  rw [withRetry, Prog.exec_bind_ok hbreaker]
  rcases hlisting : listing srv.base srv.apiKey with fault | reply
  · exact Prog.exec_retry_error (Prog.exec_bind_error (exec_send_error (by
      rw [serveMovies, hlisting])))
  · refine Prog.exec_retry_ok ?_
    rw [fetchMovies, Prog.exec_bind_ok (exec_send_ok (by rw [serveMovies, hlisting]))]
    cases reply <;> rfl

/-- The cache: the writes of all films, in their order. -/
theorem exec_buildRadarrPathCache (cfg : Config) :
    Prog.exec (serveMovies listing) (buildRadarrPathCache cfg) () =
      (.ok (OrderedDict.ofWrites
        ((listedFilms listing (getRadarrServers cfg)).flatMap Film.writes)), ()) := by
  refine (Prog.exec_foldlM (g := fun cache srv =>
    (listing srv.base srv.apiKey).movies.foldl (cacheMovie srv.target) cache)
    (fun srv _ cache => ?_) []).trans ?_
  · have hfetch := @exec_fetchMovies listing srv
    rw [cacheServer]
    rcases hlisting : listing srv.base srv.apiKey with fault | reply
    · rw [hlisting] at hfetch
      rw [Prog.exec_tryCatch_error (Prog.exec_bind_error hfetch)]
      rfl
    · rw [hlisting] at hfetch
      refine Prog.exec_tryCatch_ok ?_
      rw [Prog.exec_bind_ok hfetch]
      rfl
  · rw [OrderedDict.ofWrites, ← foldl_cacheMovie, listedFilms, List.foldl_flatMap]
    refine congrArg (fun step => (Except.ok ((getRadarrServers cfg).foldl step []), ()))
      (funext fun cache => funext fun srv => ?_)
    rw [List.foldl_map]

/-- **A lookup in the cache** finds the last film that is listed under the deciding path. -/
theorem radarrFindByPathCached_build (cfg : Config) :
    (Prog.exec (serveMovies listing) (buildRadarrPathCache cfg) ()).1.map
        (radarrFindByPathCached filePath) =
      .ok ((decidingPath (listedFilms listing (getRadarrServers cfg)) filePath).bind fun path =>
        (lastListed (listedFilms listing (getRadarrServers cfg)) path).map Film.entry) := by
  rw [exec_buildRadarrPathCache, Except.map, radarrFindByPathCached_ofWrites]

/-! ### When they agree -/

/-- A path that decides is listed. -/
theorem exists_lastListed (h : path ∈ decidingPath films filePath) :
    ∃ last, lastListed films path = some last := by
  refine Option.isSome_iff_exists.1 (lastListed_isSome.2 ?_)
  rw [decidingPath] at h
  split_ifs at h with hlisted
  · exact Option.mem_some_iff.1 h ▸ hlisted
  · exact List.mem_of_find?_eq_some h

theorem sameFilm_iff : SameFilm films filePath ↔
    ((decidingPath films filePath).bind fun path => (lastListed films path).map Film.entry) =
      (films.find? fun film => movieMatches filePath film.1).map Film.entry := by
  constructor
  · rintro ⟨hlisted, hsame⟩
    rw [← List.find?_isSome] at hlisted
    cases hpath : decidingPath films filePath with
    | none =>
        rw [hpath] at hlisted
        rw [Option.not_isSome_iff_eq_none.1 fun hsome => Bool.false_ne_true (hlisted.2 hsome)]
        rfl
    | some path =>
        obtain ⟨last, hlast⟩ := exists_lastListed (Option.mem_def.2 hpath)
        obtain ⟨first, hfirst⟩ := Option.isSome_iff_exists.1 (hlisted.1 (hpath ▸ rfl))
        rw [Option.bind_some, hlast, hfirst, Option.map_some, Option.map_some,
          hsame path hpath last hlast first hfirst]
  · intro heq
    constructor
    · rw [← List.find?_isSome]
      have hsome := congrArg Option.isSome heq
      rw [Option.isSome_map] at hsome
      rw [← hsome]
      cases hpath : decidingPath films filePath with
      | none => rfl
      | some path =>
          obtain ⟨last, hlast⟩ := exists_lastListed (Option.mem_def.2 hpath)
          rw [Option.bind_some, hlast]
          rfl
    · intro path hpath last hlast first hfirst
      rw [Option.mem_def.1 hpath, Option.bind_some, Option.mem_def.1 hlast,
        Option.mem_def.1 hfirst] at heq
      exact Option.some.inj heq

/-- **The lookup in the cache and the search agree** just when the last film that is listed under
the deciding path is the first one that the file belongs to. -/
theorem radarrFindByPathCached_eq_iff (listing : String → String → Listing) (cfg : Config)
    (filePath : String) :
    (Prog.exec (serveMovies listing) (buildRadarrPathCache cfg) ()).1.map
        (radarrFindByPathCached filePath) =
      (Prog.exec (serveMovies listing) (radarrFindByPath cfg filePath) ()).1 ↔
    SameFilm (listedFilms listing (getRadarrServers cfg)) filePath := by
  rw [radarrFindByPathCached_build, exec_radarrFindByPath_serveMovies, sameFilm_iff]
  exact ⟨Except.ok.inj, congrArg Except.ok⟩

/-- Two servers that list the same file, as films 7 and 9. -/
def sharedFolder : Config :=
  { radarrServers := [⟨"http://radarr", "k", true⟩, ⟨"http://radarr4k", "k", true⟩] }

def sharedListing (url _ : String) : Listing :=
  .ok (.ok [{ id := if url = "http://radarr" then 7 else 9, path := "/films/Dune",
              filePath := "/films/Dune/Dune.mkv" }])

/-- The search takes the film of the first server, and the cache has that of the second. -/
theorem not_radarrFindByPathCached_eq :
    ¬ ∀ (listing : String → String → Listing) (cfg : Config) (filePath : String),
      (Prog.exec (serveMovies listing) (buildRadarrPathCache cfg) ()).1.map
          (radarrFindByPathCached filePath) =
        (Prog.exec (serveMovies listing) (radarrFindByPath cfg filePath) ()).1 := by
  intro h
  have hcached : (Prog.exec (serveMovies sharedListing)
      (buildRadarrPathCache sharedFolder) ()).1.map
        (radarrFindByPathCached "/films/Dune/Dune.mkv") =
        .ok (some (9, "http://radarr4k", "k")) := by decide +kernel
  have hsearch : (Prog.exec (serveMovies sharedListing)
      (radarrFindByPath sharedFolder "/films/Dune/Dune.mkv") ()).1 =
        .ok (some (7, "http://radarr", "k")) := by decide +kernel
  have heq := h sharedListing sharedFolder "/films/Dune/Dune.mkv"
  rw [hcached, hsearch] at heq
  exact absurd heq (by decide)

/-! ### A file of one film -/

/-- The cache lists the file, or a directory above it, under the film. -/
def Covers (filePath : String) (film : Film) : Prop :=
  ∃ path ∈ listedPaths film.1, path = filePath ∨ startsWith filePath (path ++ "/") = true

/-- A deciding path covers the file. -/
theorem covers_of_decidingPath (hpath : path ∈ decidingPath films filePath)
    (hfilm : path ∈ listedPaths film.1) : Covers filePath film := by
  refine ⟨path, hfilm, ?_⟩
  rw [decidingPath] at hpath
  split_ifs at hpath
  · exact .inl (Option.mem_some_iff.1 hpath).symm
  · exact .inr (by simpa using List.find?_some hpath)

theorem decidingPath_isSome (hfilm : film ∈ films) (h : Covers filePath film) :
    (decidingPath films filePath).isSome = true := by
  obtain ⟨path, hpath, hcovers⟩ := h
  have hlisted : path ∈ films.flatMap fun film => listedPaths film.1 :=
    List.mem_flatMap.2 ⟨film, hfilm, hpath⟩
  rw [decidingPath]
  split_ifs with hfile
  · rfl
  · rcases hcovers with rfl | hstarts
    · exact absurd hlisted hfile
    · exact List.find?_isSome.2 ⟨path, hlisted, hstarts⟩

/-- A film with an identifier and a folder other than the root covers the files that belong to
it. -/
theorem covers_of_movieMatches (hid : film.1.id ≠ 0) (hfolder : rstripSlash film.1.path ≠ "")
    (h : movieMatches filePath film.1 = true) : Covers filePath film := by
  rw [movieMatches, pathMatches, Bool.or_eq_true, Bool.and_eq_true, Bool.and_eq_true,
    decide_eq_true_iff, beq_iff_eq] at h
  rw [Covers, listedPaths, if_neg hid, if_neg hfolder]
  rcases h with ⟨hne, rfl⟩ | ⟨-, hstarts⟩
  · refine ⟨_, List.mem_append_left _ ?_, .inl rfl⟩
    rw [if_neg hne]
    exact List.mem_singleton_self _
  · exact ⟨_, List.mem_append_right _ (List.mem_singleton_self _), .inr hstarts⟩

/-- The two lookups agree about a file that concerns one film only. -/
theorem sameFilm_of_single (hfilm : film ∈ films) (hid : film.1.id ≠ 0)
    (hfolder : rstripSlash film.1.path ≠ "") (hmatch : movieMatches filePath film.1 = true)
    (hsingle : ∀ other ∈ films, movieMatches filePath other.1 = true ∨ Covers filePath other →
      other.entry = film.entry) : SameFilm films filePath := by
  constructor
  · exact iff_of_true (decidingPath_isSome hfilm (covers_of_movieMatches hid hfolder hmatch))
      ⟨film, hfilm, hmatch⟩
  · intro path hpath last hlast first hfirst
    have hlisted : path ∈ listedPaths last.1 := by simpa using List.find?_some hlast
    have hmatches : movieMatches filePath first.1 = true := by simpa using List.find?_some hfirst
    rw [hsingle last (List.mem_reverse.1 (List.mem_of_find?_eq_some hlast))
        (.inr (covers_of_decidingPath hpath hlisted)),
      hsingle first (List.mem_of_find?_eq_some hfirst) (.inl hmatches)]

end Hygie
