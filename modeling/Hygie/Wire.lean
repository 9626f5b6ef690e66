/-
**What the program asks of the services around it.**

Every interaction is one `Query`: a request to Radarr, Sonarr, a media server, Seerr or
qBittorrent, a test of a circuit breaker, a statement on the notification tables.  The answer is a
`Reply` or a `Fault`, and `send` turns the fault into an exception, as the HTTP client does.

What a service may answer is governed by what it holds.  `Permits holds` says that a request may
always fail, with any status or any fault, and that the body of a success is one that `holds`
allows.  A statement about a program among `Permits holds` is therefore a statement about every
pattern of failures.

Main definitions:

* `Query`, `Query.Body`, `Query.touches` — the requests, the bodies that answer them, and the
  requests that remove or tag something;
* `Reply`, `Fault` — the answers;
* `Act`, `send` — the programs over these queries, and one request;
* `withRetry`, `httpRetry` — the two retry wrappers;
* `Permits` — the surroundings given by what the servers hold.

Main results:

* `wp_send` — **one request**: success with a permitted body, or any failure;
* `wp_withRetry`, `wp_httpRetry` — retrying demands no more than one attempt;
* `Searches.send`, `Searches.sendThen`, `Searches.withRetry` — requests as lookups;
* `wp_guardedRequest` — a request whose failures are all `False`.
-/

import Hygie.Prog

set_option relaxedAutoImplicit false
set_option autoImplicit false

namespace Hygie

/-! ### Records -/

/-- A film as Radarr lists it; an absent path is empty. -/
structure RadarrMovie where
  id : ℤ
  path : String := ""
  filePath : String := ""
  size : ℤ := 0
  deriving DecidableEq, Repr

/-- A series as Sonarr lists it. -/
structure SonarrSeries where
  id : ℤ
  path : String := ""
  sizeOnDisk : ℤ := 0
  deriving DecidableEq, Repr

/-- An episode file as Sonarr lists it. -/
structure EpisodeFile where
  id : ℤ
  seriesId : ℤ
  path : String := ""
  seasonNumber : Option ℤ := none
  deriving DecidableEq, Repr

/-- An episode as Sonarr lists it, with the file it is stored in. -/
structure Episode where
  id : ℤ
  seriesId : ℤ
  episodeFileId : Option ℤ := none
  seasonNumber : Option ℤ := none
  deriving DecidableEq, Repr

/-- A record of a download history; an absent `downloadId` is empty. -/
structure HistoryRecord where
  downloadId : String := ""
  movieId : Option ℤ := none
  seriesId : Option ℤ := none
  episodeId : Option ℤ := none
  deriving DecidableEq, Repr

/-- What a media server says of a library item found by its path. -/
structure EmbyItem where
  id : String
  path : String := ""
  deriving DecidableEq, Repr

/-- A torrent as qBittorrent lists it. -/
structure Torrent where
  hash : String := ""
  name : String := ""
  savePath : String := ""
  contentPath : String := ""
  deriving DecidableEq, Repr

/-- The kind of library item a search by path asks for. -/
inductive ItemType
  | series
  | season
  deriving DecidableEq, Repr

/-- The torrent operations that change qBittorrent. -/
inductive QbitOp
  | createTags (tag : String)
  | addTags (hash tag : String)
  | delete (hash : String) (deleteFiles : Bool)
  deriving DecidableEq, Repr

/-! ### Queries and answers -/

/-- One interaction with a service or with the notification tables. -/
inductive Query
  | breaker (service : String)
  | radarrMovies (url key : String)
  | radarrMovie (url key : String) (id : ℤ)
  | radarrMovieHistory (url key : String) (movieId : ℤ)
  | radarrHistory (url key : String) (movieId : ℤ)
  | radarrDelete (url key : String) (id : ℤ) (deleteFiles : Bool)
  | sonarrSeries (url key : String)
  | sonarrSeriesById (url key : String) (id : ℤ)
  | sonarrEpisodeFiles (url key : String) (seriesId : ℤ)
  | sonarrEpisodeFile (url key : String) (id : ℤ)
  | sonarrEpisodes (url key : String) (seriesId : ℤ)
  | sonarrSeriesHistory (url key : String) (seriesId : ℤ)
  | sonarrDeleteFile (url key : String) (id : ℤ)
  | sonarrDeleteFiles (url key : String) (ids : List ℤ)
  | sonarrUnmonitorEpisodes (url key : String) (ids : List ℤ)
  | sonarrUnmonitorSeries (url key : String) (id : ℤ)
  | embyItems (url key path : String) (types : ItemType)
  | embyDelete (url key itemId : String)
  | plexDelete (url token ratingKey : String)
  | seerrDelete (url key : String) (mediaId : ℤ)
  | qbitLogin (url : String)
  | qbitTorrents (url : String)
  | qbit (url : String) (op : QbitOp)
  | notifiedNow (mediaId : ℤ)
  | sendNow (mediaId : ℤ)
  | markNow (mediaId : ℤ)
  | addStats (sizeBytes : ℤ) (libraryId : String)
  deriving DecidableEq, Repr

/-- The body of a successful answer. -/
abbrev Query.Body : Query → Type
  | .radarrMovies .. => List RadarrMovie
  | .radarrMovie .. => RadarrMovie
  | .radarrMovieHistory .. | .radarrHistory .. | .sonarrSeriesHistory .. => List HistoryRecord
  | .sonarrSeries .. => List SonarrSeries
  | .sonarrSeriesById .. => SonarrSeries
  | .sonarrEpisodeFiles .. => List EpisodeFile
  | .sonarrEpisodeFile .. => EpisodeFile
  | .sonarrEpisodes .. => List Episode
  | .embyItems .. => List EmbyItem
  | .qbitLogin .. | .notifiedNow .. => Bool
  | .qbitTorrents .. => List Torrent
  | _ => Unit

/-- The queries that remove or tag something: a film, a file, a library item, a request, a
torrent. -/
def Query.touches : Query → Bool
  | .radarrDelete .. | .sonarrDeleteFile .. | .sonarrDeleteFiles .. => true
  | .embyDelete .. | .plexDelete .. | .seerrDelete .. | .qbit .. => true
  | _ => false

/-- An answer: status 200 with its body, status 204, or any other status. -/
inductive Reply (α : Type)
  | ok (body : α)
  | noContent
  | failed (code : ℕ)
  deriving DecidableEq, Repr

/-- `r.status_code in (200, 204)`. -/
def Reply.succeeded {α : Type} : Reply α → Bool
  | .ok _ | .noContent => true
  | .failed _ => false

/-- An exception: a transient network error, or anything else. -/
inductive Fault
  | transient
  | fatal
  deriving DecidableEq, Repr, Inhabited

/-- The exceptions the retry wrappers try again on. -/
def Fault.isTransient : Fault → Bool
  | .transient => true
  | .fatal => false

/-- The answer to a query. -/
abbrev Query.Answer (q : Query) : Type := Except Fault (Reply q.Body)

/-- A program of the application. -/
abbrev Act (α : Type) : Type := Prog Query Query.Answer Fault α

/-- Send one request; a fault is an exception. -/
def send (q : Query) : Act (Reply q.Body) := do
  match ← Prog.perform q with
  | .ok r => pure r
  | .error f => throw f

/-- `with_retry(fn, service=...)`: three attempts behind the circuit breaker of the service. -/
def withRetry {α : Type} (service : String) (fn : Act α) : Act α := do
  let _ ← send (.breaker service)
  Prog.retry Fault.isTransient fn 2

/-- `http_retry(fn)`: three attempts. -/
def httpRetry {α : Type} (fn : Act α) : Act α := Prog.retry Fault.isTransient fn 2

/-! ### Surroundings -/

/-- The surroundings in which a request may fail in any way and the body of a success is one that
`holds` allows. -/
def Permits (holds : ∀ q : Query, q.Body → Prop) (q : Query) : q.Answer → Prop
  | .ok (.ok b) => holds q b
  | _ => True

variable {holds : ∀ q : Query, q.Body → Prop} {P : Query → Prop} {E : Fault → Prop} {C : Prop}

/-- **One request**: a permitted body, or any failure. -/
@[simp] theorem wp_send (q : Query) {R : Reply q.Body → Prop} :
    Prog.wp (α := no_index (Reply q.Body)) (Permits holds) P (send q) R E ↔
      P q ∧ (∀ b, holds q b → R (.ok b)) ∧ R .noContent ∧ (∀ c, R (.failed c)) ∧ ∀ f, E f := by
  rw [send, Prog.wp_bind, Prog.wp_perform]
  refine and_congr_right fun _ => ?_
  constructor
  · intro h
    exact ⟨fun b hb => (Prog.wp_pure _).1 (h (.ok (.ok b)) hb),
      (Prog.wp_pure _).1 (h (.ok .noContent) trivial),
      fun c => (Prog.wp_pure _).1 (h (.ok (.failed c)) trivial),
      fun f => (Prog.wp_throw f).1 (h (.error f) trivial)⟩
  · rintro ⟨hok, hno, hfailed, hfault⟩ r hr
    cases r with
    | error f => exact (Prog.wp_throw f).2 (hfault f)
    | ok r =>
        cases r with
        | ok b => exact (Prog.wp_pure _).2 (hok b hr)
        | noContent => exact (Prog.wp_pure _).2 hno
        | failed c => exact (Prog.wp_pure _).2 (hfailed c)

theorem always_send (q : Query) (hq : P q) : Prog.Always (Permits holds) P (send q) :=
  Prog.always_iff_wp.2 ((wp_send q).2 (by simp [hq]))

/-- Retrying behind the breaker demands one attempt, and that the breaker may be open. -/
@[simp] theorem wp_withRetry {α : Type} {R : α → Prop} (service : String) (fn : Act α) :
    Prog.wp (Permits holds) P (withRetry service fn) R (fun _ => C) ↔
      P (.breaker service) ∧ (∀ b, holds (.breaker service) b →
        Prog.wp (Permits holds) P fn R fun _ => C) ∧
        Prog.wp (Permits holds) P fn R (fun _ => C) ∧ C := by
  simp only [withRetry, Prog.wp_bind, wp_send, Prog.wp_retry, forall_const, and_self_left]

@[simp] theorem wp_httpRetry {α : Type} {R : α → Prop} (fn : Act α) :
    Prog.wp (Permits holds) P (httpRetry fn) R (fun _ => C) ↔
      Prog.wp (Permits holds) P fn R fun _ => C :=
  Prog.wp_retry 2

/-! ### Requests as lookups -/

/-- One request whose body leads to a further lookup, or to a value. -/
theorem Searches.sendThen {β : Type} {q : Query} (hq : P q) {F : q.Body → β → Prop}
    {f : Reply q.Body → Act (Option β)}
    (hok : ∀ b, holds q b → ∀ (R : Option β → Prop) (C : Prop), R none → C →
      (Prog.wp (Permits holds) P (f (.ok b)) R (fun _ => C) ↔ ∀ c, F b c → R (some c)))
    (hno : f .noContent = pure none) (hfailed : ∀ c, f (.failed c) = pure none) :
    Prog.Searches (Permits holds) P (Hygie.send q >>= f) (fun c => ∃ b, holds q b ∧ F b c)
      True := by
  intro R C
  simp only [Prog.wp_bind, wp_send, hno, hfailed, Prog.wp_pure, hq, true_and, forall_const]
  constructor
  · rintro ⟨hbody, hnone, -, hC⟩
    refine ⟨hnone, ?_, hC⟩
    rintro c ⟨b, hb, hc⟩
    exact (hok b hb R C hnone hC).1 (hbody b hb) c hc
  · rintro ⟨hnone, hsome, hC⟩
    exact ⟨fun b hb => (hok b hb R C hnone hC).2 fun c hc => hsome c ⟨b, hb, hc⟩, hnone, hnone,
      hC⟩

/-- One request whose body is read by `g`: it finds what `g` makes of a permitted body. -/
theorem Searches.send {β : Type} {q : Query} (hq : P q) {g : q.Body → Option β}
    {f : Reply q.Body → Act (Option β)} (hok : ∀ b, f (.ok b) = pure (g b))
    (hno : f .noContent = pure none) (hfailed : ∀ c, f (.failed c) = pure none) :
    Prog.Searches (Permits holds) P (Hygie.send q >>= f)
      (fun c => ∃ b, holds q b ∧ g b = some c) True := by
  refine Searches.sendThen hq (fun b _ R C hnone _ => ?_) hno hfailed
  rw [hok, Prog.wp_pure]
  cases g b <;> simp [hnone]

/-- A request behind the retry wrapper, whose success is the result and whose failure of any kind
is `False`. -/
theorem wp_guardedRequest {service : String} (hP : P (.breaker service)) (q : Query)
    (R : Bool → Prop) (C : Prop) :
    Prog.wp (Permits holds) P
        (do try
              Hygie.withRetry service do
                let r ← Hygie.send q
                pure r.succeeded
            catch _ => pure false) R (fun _ => C) ↔
      R false ∧ P q ∧ R true := by
  simp only [Prog.wp_tryCatch, wp_withRetry, Prog.wp_bind, wp_send, Prog.wp_pure, hP,
    Reply.succeeded, true_and, forall_const]
  tauto

/-- The answers of services that do as they are told and know of nothing. -/
def acknowledge (q : Query) : q.Answer := .ok .noContent

theorem permits_acknowledge (q : Query) : Permits holds q (acknowledge q) := trivial

theorem permits_nonempty (q : Query) : ∃ r, Permits holds q r := ⟨_, permits_acknowledge q⟩

/-- A lookup behind the retry wrapper and the breaker. -/
theorem Searches.withRetry {β : Type} {service : String} (hP : P (.breaker service))
    {x : Act (Option β)} {F : β → Prop} {m : Prop}
    (h : Prog.Searches (Permits holds) P x F m) :
    Prog.Searches (Permits holds) P (Hygie.withRetry service x) F True := by
  intro R C
  simp only [wp_withRetry, hP, h R C, true_and, forall_const]
  constructor
  · rintro ⟨-, ⟨hnone, hsome, -⟩, hC⟩
    exact ⟨hnone, hsome, hC⟩
  · rintro ⟨hnone, hsome, hC⟩
    exact ⟨fun _ _ => ⟨hnone, hsome, fun _ => hC⟩, ⟨hnone, hsome, fun _ => hC⟩, hC⟩

/-- A lookup that starts with a query whose answer does not matter. -/
theorem Searches.after {β : Type} {q : Query} (hq : P q) {x : Act (Option β)} {F : β → Prop}
    {m : Prop} (h : Prog.Searches (Permits holds) P x F m) :
    Prog.Searches (Permits holds) P (Hygie.send q >>= fun _ => x) F True := by
  intro R C
  simp only [Prog.wp_bind, wp_send, hq, h R C, true_and, forall_const]
  tauto

/-- Retrying the request that a lookup starts with changes nothing. -/
theorem Searches.httpRetry {α β : Type} {x : Act α} {f : α → Act (Option β)} {F : β → Prop}
    {m : Prop} (h : Prog.Searches (Permits holds) P (x >>= f) F m) :
    Prog.Searches (Permits holds) P (Hygie.httpRetry x >>= f) F m := by
  intro R C
  rw [← h R C, Prog.wp_bind, Prog.wp_bind, wp_httpRetry]

end Hygie
