/-
**The deletion of one title.**

Nine steps in a row take a title out of every service: its size and torrents are looked up while
Radarr and Sonarr still know them, Discord is told, the media server, Radarr or Sonarr, Seerr and
qBittorrent are asked to let go of it, and the deletion is counted.  A step that raises ends the
pipeline with `False`; the steps that only look something up or record something catch their own
exceptions.

A context holds what the steps hand on to each other.  A hash found for a single title carries a
mark that tells whether it was read from a download history or found in qBittorrent by path; the
mark is not part of the program and nothing depends on it.

Main definitions:

* `DeletionContext` — the shared state of the steps;
* `findTorrentHash`, `findTorrentHashesConsolidated`, `deleteFromArr` — the helpers of the steps;
* `mediaServerStep`, `arrStep`, `qbitStep` and the other steps;
* `execute`, `deleteMedia` — the pipeline.

Main results:

* `wp_execute_returns` — **the pipeline never raises**: it returns `True` or `False`.
-/

import Hygie.MediaServers
import Hygie.Qbit
import Hygie.Radarr
import Hygie.Sonarr

set_option relaxedAutoImplicit false
set_option autoImplicit false

namespace Hygie

open PyText

/-! ### The context -/

/-- The row a pipeline works on, with the key `_server_id` that a caller may have added. -/
structure Item extends QueueRow where
  serverId : Option String := none
  deriving DecidableEq, Repr

/-- A torrent hash, and whether it comes from a download history. -/
structure FoundHash where
  hash : String
  fromArr : Bool
  deriving DecidableEq, Repr

/-- `DeletionContext`. -/
structure DeletionContext where
  item : Item
  dryRun : Bool := false
  qbitAction : String := "tag_only"
  qbitTag : String := "Supprimé-Hygie"
  server : Option MediaServer := none
  torrentHash : Option FoundHash := none
  torrentHashes : List String := []
  sizeBytes : ℤ := 0
  stepWarnings : List String := []
  deriving DecidableEq, Repr

namespace DeletionContext

/-- The media server of the item; without the key it is server `0`. -/
def serverId (ctx : DeletionContext) : String := (truthyText ctx.item.serverId).getD "0"

/-- The hashes that the last steps act on, with their origin. -/
def handed (ctx : DeletionContext) : List FoundHash :=
  if ctx.torrentHashes = [] then ctx.torrentHash.toList
  else ctx.torrentHashes.map fun h => ⟨h, true⟩

end DeletionContext

/-! ### The helpers -/

/-- The torrent of a file, found in qBittorrent by its path. -/
def torrentByPath (cfg : Config) (filePath : String) : Act (Option FoundHash) := do
  let h ← qbitFindByPath cfg filePath
  pure (h.map fun h => ⟨h, false⟩)

/-- A hash looked up in a download history. -/
def torrentFromArr (lookup : Act (Option String)) : Act (Option FoundHash) := do
  let h ← lookup
  pure (h.map fun h => ⟨h, true⟩)

/-- The episode file of a row: the stored one, or else the one with its path. -/
def episodeFileOf (cfg : Config) (row : QueueEntry) : Act (Option ℤ) :=
  match truthyId row.sonarrId with
  | some sid => pure (some sid)
  | none => sonarrFindByPath cfg row.filePath

/-- The torrent of an episode file, or of its path when there is none. -/
def torrentOfFile (cfg : Config) (filePath : String) (sid : Option ℤ) : Act (Option FoundHash) :=
  match truthyId sid with
  | some sid => torrentFromArr (sonarrGetTorrentHash cfg sid "" "")
  | none => torrentByPath cfg filePath

/-- `_find_torrent_hash`. -/
def findTorrentHash (cfg : Config) (row : QueueEntry) : Act (Option FoundHash) :=
  if row.mediaType = "Movie" then
    match truthyId row.radarrId with
    | some rid => torrentFromArr (radarrGetTorrentHashAny cfg rid)
    | none => do
        match ← radarrFindByPath cfg row.filePath with
        | some found => torrentFromArr (radarrGetTorrentHash cfg found.1 found.2.1 found.2.2)
        | none => torrentByPath cfg row.filePath
  else do
    let sid ← episodeFileOf cfg row
    torrentOfFile cfg row.filePath sid

/-- `_find_torrent_hashes_consolidated`. -/
def findTorrentHashesConsolidated (cfg : Config) (row : QueueEntry) : Act (List String) :=
  if isConsolidatedRow row then
    sonarrGetTorrentHashesForGroup cfg (row.sonarrSeriesId.getD 0) row.seasonNumber "" ""
  else pure []

/-- `_delete_from_arr`: a title that was never matched is not a failure. -/
def deleteFromArr (cfg : Config) (row : QueueEntry) : Act Bool :=
  if row.mediaType = "Movie" then
    match truthyId row.radarrId with
    | some rid => radarrDeleteById cfg rid false row.arrServerUrl row.filePath
    | none => do
        match ← radarrFindByPath cfg row.filePath with
        | some found => radarrDelete cfg found.1 false found.2.1 found.2.2
        | none => pure true
  else if isConsolidatedRow row then
    let seriesId := row.sonarrSeriesId.getD 0
    match row.seasonNumber with
    | some n => sonarrDeleteSeason cfg seriesId n "" "" row.arrServerUrl row.filePath
    | none => sonarrDeleteSeries cfg seriesId "" "" row.arrServerUrl row.filePath
  else
    match truthyId row.sonarrId with
    | some sid => sonarrDeleteEpisodeFile cfg sid "" "" row.arrServerUrl row.filePath
    | none => do
        match ← sonarrFindByPathFull cfg row.filePath with
        | some found => sonarrDeleteEpisodeFile cfg found.1 found.2.1 found.2.2 none ""
        | none => pure true

/-! ### The steps -/

/-- A step: it changes the context, or raises. -/
abbrev Step := DeletionContext → Act DeletionContext

/-- `SizeLookupStep`. -/
def sizeLookupStep (cfg : Config) : Step := fun ctx =>
  if ctx.dryRun then pure ctx
  else do
    try
      if ctx.item.mediaType = "Movie" then
        match truthyId ctx.item.radarrId with
        | some rid =>
            let movie ← radarrGetAny cfg rid
            pure { ctx with sizeBytes := (movie.map RadarrMovie.size).getD 0 }
        | none => pure ctx
      else
        match truthyId ctx.item.sonarrSeriesId with
        | some sid =>
            let series ← sonarrGetSeriesByIdAny cfg sid
            pure { ctx with sizeBytes := (series.map SonarrSeries.sizeOnDisk).getD 0 }
        | none => pure ctx
    catch _ => pure { ctx with stepWarnings := ctx.stepWarnings ++ ["SizeLookup"] }

/-- `TorrentHashStep`. -/
def torrentHashStep (cfg : Config) : Step := fun ctx =>
  if ctx.dryRun then pure ctx
  else do
    try
      if isConsolidatedRow ctx.item.toQueueEntry then
        let hashes ← findTorrentHashesConsolidated cfg ctx.item.toQueueEntry
        pure { ctx with torrentHashes := hashes }
      else
        let hash ← findTorrentHash cfg ctx.item.toQueueEntry
        pure { ctx with torrentHash := hash }
    catch _ => pure { ctx with stepWarnings := ctx.stepWarnings ++ ["TorrentHash"] }

/-- Whether the last notification of a row was recorded. -/
def alreadyNotified (mediaId : ℤ) : Act Bool :=
  if mediaId ≠ 0 then do
    match ← send (.notifiedNow mediaId) with
    | .ok already => pure already
    | _ => pure false
  else pure false

/-- Record the last notification of a row. -/
def markNotified (mediaId : ℤ) : Act Unit :=
  if mediaId ≠ 0 then do
    let _ ← send (.markNow mediaId)
    pure ()
  else pure ()

/-- `DiscordNotifyStep`: once for each row. -/
def discordNotifyStep : Step := fun ctx =>
  if ctx.dryRun then pure ctx
  else do
    try
      if ← alreadyNotified ctx.item.id then pure ctx
      else do
        let _ ← send (.sendNow ctx.item.id)
        markNotified ctx.item.id
        pure ctx
    catch _ => pure ctx

/-- `ServerResolveStep`. -/
def serverResolveStep (cfg : Config) : Step := fun ctx =>
  pure { ctx with server := cfg.mediaServers.find? (·.id == ctx.serverId) }

/-- The folder in which the library item of a consolidated row is looked for. -/
def targetPath (row : QueueEntry) (seriesPath : String) : String :=
  if row.seasonNumber.isSome then dirname row.filePath else seriesPath

/-- The kind of the library item of a consolidated row. -/
def targetType (row : QueueEntry) : ItemType :=
  if row.seasonNumber.isSome then .season else .series

/-- The library item of a consolidated row: the season in the folder of the row's file, or the
series in the folder that Sonarr reports. -/
def consolidatedTarget (cfg : Config) (ctx : DeletionContext) (seriesPath : String) :
    Act (Option EmbyItem) :=
  findItemByPath cfg (targetPath ctx.item.toQueueEntry seriesPath)
    (targetType ctx.item.toQueueEntry) ctx.serverId

/-- `MediaServerStep._delete_consolidated`. -/
def deleteConsolidated (cfg : Config) (ctx : DeletionContext) : Act Unit :=
  match truthyId ctx.item.sonarrSeriesId with
  | none => pure ()
  | some seriesId => do
      let series ← sonarrGetSeriesByIdAny cfg seriesId
      let seriesPath := (series.map SonarrSeries.path).getD ""
      if seriesPath = "" then pure ()
      else do
        match ← consolidatedTarget cfg ctx seriesPath with
        | none => pure ()
        | some item => do
            let ok ← deleteItem cfg item.id ctx.serverId
            if ok then pure () else throw .fatal

/-- `MediaServerStep`. -/
def mediaServerStep (cfg : Config) : Step := fun ctx =>
  if ctx.dryRun ∨ ctx.item.embyId = "" then pure ctx
  else if startsWith ctx.item.embyId "sonarr-" then do
    deleteConsolidated cfg ctx
    pure ctx
  else do
    let ok ← deleteServerItem cfg (ctx.server.getD noServer) ctx.item.toQueueRow ctx.serverId
    if ok then pure ctx else throw .fatal

/-- `ArrStep`. -/
def arrStep (cfg : Config) : Step := fun ctx =>
  if ctx.dryRun then pure ctx
  else do
    let ok ← deleteFromArr cfg ctx.item.toQueueEntry
    if ok then pure ctx else throw .fatal

/-- `SeerrStep`. -/
def seerrStep (cfg : Config) : Step := fun ctx =>
  if ctx.dryRun then pure ctx
  else
    match truthyId ctx.item.seerrId with
    | some seerrId => do
        let _ ← seerrDeleteRequest cfg seerrId
        pure ctx
    | none => pure ctx

/-- `QbitStep`: every hash of a group, or else the one of the title. -/
def qbitStep (cfg : Config) : Step := fun ctx =>
  if ctx.dryRun then pure ctx
  else if ctx.torrentHashes ≠ [] then do
    ctx.torrentHashes.forM fun h => handleQbit cfg h ctx.qbitAction ctx.qbitTag
    pure ctx
  else
    match ctx.torrentHash with
    | some found =>
        if found.hash = "" then pure ctx
        else do
          handleQbit cfg found.hash ctx.qbitAction ctx.qbitTag
          pure ctx
    | none => pure ctx

/-- `StatsStep`. -/
def statsStep : Step := fun ctx =>
  if ctx.dryRun then pure ctx
  else do
    try
      let _ ← send (.addStats ctx.sizeBytes ctx.item.libraryId)
      pure ctx
    catch _ => pure ctx

/-! ### The pipeline -/

/-- `build_default_pipeline`. -/
def defaultPipeline (cfg : Config) : List Step :=
  [sizeLookupStep cfg, torrentHashStep cfg, discordNotifyStep, serverResolveStep cfg,
    mediaServerStep cfg, arrStep cfg, seerrStep cfg, qbitStep cfg, statsStep]

/-- `DeletionPipeline.execute`: a step that raises ends it with `False`. -/
def execute : List Step → DeletionContext → Act Bool
  | [], _ => pure true
  | step :: steps, ctx => do
      let next ← tryCatch (some <$> step ctx) fun _ => pure none
      match next with
      | some ctx => execute steps ctx
      | none => pure false

/-- `_delete_media`. -/
def deleteMedia (cfg : Config) (item : Item) (dryRun : Bool) (qbitAction qbitTag : String) :
    Act Bool :=
  if dryRun then pure true
  else
    execute (defaultPipeline cfg)
      { item := item
        qbitAction := if qbitAction = "" then "tag_only" else qbitAction
        qbitTag := if qbitTag = "" then "Supprimé-Hygie" else qbitTag }

/-! ### What the pipeline can do -/

/-- Two contexts of one task: the item and the mode are the same. -/
def SameTask (ctx ctx' : DeletionContext) : Prop := ctx'.item = ctx.item ∧ ctx'.dryRun = ctx.dryRun

/-- A step that goes on with the same task, whatever the services answer. -/
def Preparatory (holds : ∀ q : Query, q.Body → Prop) (P : Query → Prop) (step : Step) : Prop :=
  ∀ ctx, Prog.wp (Permits holds) P (step ctx) (SameTask ctx) fun _ => False

variable {holds : ∀ q : Query, q.Body → Prop} {P : Query → Prop} {C : Prop} {cfg : Config}
  {R : DeletionContext → Prop}

/-- A requirement that only looks at the task passes through a preparatory step unchanged. -/
theorem Preparatory.wp_iff {step : Step} (h : Preparatory holds P step) {ctx : DeletionContext}
    (hR : ∀ ctx', SameTask ctx ctx' → (R ctx' ↔ R ctx)) :
    Prog.wp (Permits holds) P (step ctx) R (fun _ => C) ↔ R ctx := by
  constructor
  · intro hstep
    rcases Prog.exists_of_wp permits_nonempty (Prog.wp_and hstep (h ctx)) with
      ⟨ctx', hctx', hsame⟩ | ⟨_, _, hfalse⟩
    · exact (hR ctx' hsame).1 hctx'
    · exact hfalse.elim
  · intro hctx
    exact Prog.wp_mono (fun ctx' hsame => (hR ctx' hsame).2 hctx) (fun _ => False.elim) (h ctx)

/-- A step whose body is guarded by a handler is preparatory when both only go on with the task. -/
theorem Preparatory.of_guarded {body : DeletionContext → Act DeletionContext}
    {handler : DeletionContext → DeletionContext}
    (hbody : ∀ ctx, Prog.wp (Permits holds) P (body ctx) (SameTask ctx) fun _ => True)
    (hhandler : ∀ ctx, SameTask ctx (handler ctx)) :
    Preparatory holds P fun ctx =>
      if ctx.dryRun then pure ctx else tryCatch (body ctx) fun _ => pure (handler ctx) := by
  intro ctx
  refine (Prog.wp_ite _ _ _).2 ⟨fun _ => (Prog.wp_pure _).2 ⟨rfl, rfl⟩, fun _ =>
    (Prog.wp_tryCatch _ _).2 (Prog.wp_mono (fun _ => id) (fun _ _ => ?_) (hbody ctx))⟩
  exact (Prog.wp_pure _).2 (hhandler ctx)

/-- **One step of the pipeline**: it goes on after the step, or the step raises and it returns
`False`. -/
theorem wp_execute_cons (step : Step) (steps : List Step) (ctx : DeletionContext)
    {R : Bool → Prop} :
    Prog.wp (Permits holds) P (execute (step :: steps) ctx) R (fun _ => C) ↔
      Prog.wp (Permits holds) P (step ctx)
        (fun ctx' => Prog.wp (Permits holds) P (execute steps ctx') R fun _ => C)
        fun _ => R false := by
  simp only [execute, Prog.wp_bind, Prog.wp_tryCatch, Prog.wp_map, Prog.wp_pure]

/-- A pipeline that only depends on the task is not changed by a preparatory step before it. -/
theorem wp_execute_preparatory {step : Step} (h : Preparatory holds P step) {steps : List Step}
    {ctx : DeletionContext} {R : Bool → Prop} {Q : Prop}
    (hsteps : ∀ ctx', SameTask ctx ctx' →
      (Prog.wp (Permits holds) P (execute steps ctx') R (fun _ => C) ↔ Q)) :
    Prog.wp (Permits holds) P (execute (step :: steps) ctx) R (fun _ => C) ↔ Q := by
  rw [wp_execute_cons, h.wp_iff, hsteps ctx ⟨rfl, rfl⟩]
  intro ctx' hsame
  rw [hsteps ctx' hsame, hsteps ctx ⟨rfl, rfl⟩]

/-- **The pipeline never raises**: it returns `True` or `False`. -/
theorem wp_execute_returns {steps : List Step} {ctx : DeletionContext} :
    Prog.wp (Permits holds) (fun _ => True) (execute steps ctx) (fun _ => True) fun _ => False := by
  induction steps generalizing ctx with
  | nil => exact (Prog.wp_pure _).2 trivial
  | cons step steps ih =>
      rw [wp_execute_cons]
      exact (Prog.Always.trivial (step ctx)).wp (fun _ => ih) fun _ => trivial

section Rules

variable (hP : ∀ q : Query, q.touches = false → P q)

include hP

theorem preparatory_sizeLookupStep : Preparatory holds P (sizeLookupStep cfg) := by
  refine Preparatory.of_guarded (fun ctx => ?_) fun ctx => ⟨rfl, rfl⟩
  refine (Prog.wp_ite _ _ _).2 ⟨fun _ => ?_, fun _ => ?_⟩
  · cases truthyId ctx.item.radarrId with
    | none => exact (Prog.wp_pure _).2 ⟨rfl, rfl⟩
    | some rid =>
        exact (Prog.wp_bind _ _).2 ((searches_radarrGetAny hP rid).always.wp
          (fun _ => (Prog.wp_pure _).2 ⟨rfl, rfl⟩) fun _ => trivial)
  · cases truthyId ctx.item.sonarrSeriesId with
    | none => exact (Prog.wp_pure _).2 ⟨rfl, rfl⟩
    | some sid =>
        exact (Prog.wp_bind _ _).2 ((searches_sonarrGetSeriesByIdAny hP sid).always.wp
          (fun _ => (Prog.wp_pure _).2 ⟨rfl, rfl⟩) fun _ => trivial)

theorem preparatory_discordNotifyStep : Preparatory holds P discordNotifyStep := by
  refine Preparatory.of_guarded (fun ctx => ?_) fun ctx => ⟨rfl, rfl⟩
  have halready : Prog.Always (Permits holds) P (alreadyNotified ctx.item.id) :=
    Prog.Always.ite (fun _ => Prog.Always.bind (always_send (.notifiedNow ctx.item.id) (hP _ rfl))
      fun r => by cases r <;> exact .pure _) fun _ => .pure _
  have hmark : Prog.Always (Permits holds) P (markNotified ctx.item.id) :=
    Prog.Always.ite (fun _ => Prog.Always.bind (always_send (.markNow ctx.item.id) (hP _ rfl))
      fun _ => .pure _) fun _ => .pure _
  have hsend : Prog.Always (Permits holds) P (send (.sendNow ctx.item.id)) :=
    always_send (.sendNow ctx.item.id) (hP _ rfl)
  refine (Prog.wp_bind _ _).2 (halready.wp (fun already => ?_) fun _ => trivial)
  refine (Prog.wp_ite _ _ _).2 ⟨fun _ => (Prog.wp_pure _).2 ⟨rfl, rfl⟩, fun _ => ?_⟩
  refine (Prog.wp_bind _ _).2 (hsend.wp (fun _ => ?_) fun _ => trivial)
  exact (Prog.wp_bind _ _).2 (hmark.wp (fun _ => (Prog.wp_pure _).2 ⟨rfl, rfl⟩) fun _ => trivial)

theorem always_torrentByPath (filePath : String) :
    Prog.Always (Permits holds) P (torrentByPath cfg filePath) :=
  .bind (Prog.always_iff_wp.2 (wp_qbitFindByPath hP filePath fun _ => trivial)) fun _ => .pure _

theorem always_episodeFileOf (row : QueueEntry) :
    Prog.Always (Permits holds) P (episodeFileOf cfg row) := by
  rw [episodeFileOf]
  cases truthyId row.sonarrId with
  | some sid => exact .pure _
  | none => exact .bind (searches_sonarrFindByPathFull hP _).always fun _ => .pure _

theorem always_findTorrentHash (row : QueueEntry) :
    Prog.Always (Permits holds) P (findTorrentHash cfg row) := by
  refine .ite (fun _ => ?_) fun _ => .bind (always_episodeFileOf hP row) fun sid => ?_
  · cases truthyId row.radarrId with
    | some rid => exact .bind (searches_radarrGetTorrentHashAny hP rid).always fun _ => .pure _
    | none =>
        refine .bind (searches_radarrFindByPath hP _).always fun found => ?_
        cases found with
        | some found => exact .bind (searches_radarrGetTorrentHash hP _ _ _).always fun _ => .pure _
        | none => exact always_torrentByPath hP _
  · rw [torrentOfFile]
    cases truthyId sid with
    | some sid => exact .bind (searches_sonarrGetTorrentHash hP _ _ _).always fun _ => .pure _
    | none => exact always_torrentByPath hP _

theorem always_findTorrentHashesConsolidated (row : QueueEntry) :
    Prog.Always (Permits holds) P (findTorrentHashesConsolidated cfg row) :=
  .ite (fun _ => always_sonarrGetTorrentHashesForGroup hP _ _ _ _) fun _ => .pure _

theorem preparatory_torrentHashStep : Preparatory holds P (torrentHashStep cfg) := by
  refine Preparatory.of_guarded (fun ctx => ?_) fun ctx => ⟨rfl, rfl⟩
  refine (Prog.wp_ite _ _ _).2 ⟨fun _ => ?_, fun _ => ?_⟩
  · exact (Prog.wp_bind _ _).2 ((always_findTorrentHashesConsolidated hP _).wp
      (fun _ => (Prog.wp_pure _).2 ⟨rfl, rfl⟩) fun _ => trivial)
  · exact (Prog.wp_bind _ _).2 ((always_findTorrentHash hP _).wp
      (fun _ => (Prog.wp_pure _).2 ⟨rfl, rfl⟩) fun _ => trivial)

/-- The removal of a film asks for nothing but films to be removed. -/
theorem always_deleteFromArr_movie
    (hdelete : ∀ url key id files, P (.radarrDelete url key id files))
    {row : QueueEntry} (hmovie : row.mediaType = "Movie") :
    Prog.Always (Permits holds) P (deleteFromArr cfg row) := by
  rw [deleteFromArr, if_pos hmovie]
  cases truthyId row.radarrId with
  | some rid =>
      show Prog.Always _ _ (radarrDeleteById ..)
      rw [radarrDeleteById]
      cases resolveArrServer cfg (getRadarrServers cfg) row.arrServerUrl with
      | some target => exact always_radarrDelete hP hdelete _ _ _ _
      | none =>
          refine .bind (searches_radarrFindByPath hP _).always fun found => ?_
          cases found with
          | some found => exact always_radarrDelete hP hdelete _ _ _ _
          | none => exact .pure _
  | none =>
      refine .bind (searches_radarrFindByPath hP _).always fun found => ?_
      cases found with
      | some found => exact always_radarrDelete hP hdelete _ _ _ _
      | none => exact .pure _

/-- The library item of a consolidated row is one that lies in its folder. -/
theorem searches_consolidatedTarget (ctx : DeletionContext) (seriesPath : String) :
    Prog.Searches (Permits holds) P (consolidatedTarget cfg ctx seriesPath)
      (fun item => (targetPath ctx.item.toQueueEntry seriesPath ≠ "" ∧
          Contactable (getClient cfg ctx.serverId)) ∧
        ∃ items, holds (.embyItems (getClient cfg ctx.serverId).1 (getClient cfg ctx.serverId).2
            (targetPath ctx.item.toQueueEntry seriesPath) (targetType ctx.item.toQueueEntry))
            items ∧
          items.find? (fun item => rstripSlash item.path ==
            rstripSlash (targetPath ctx.item.toQueueEntry seriesPath)) = some item) False := by
  exact searches_findItemByPath hP _ _ _

/-- **A consolidated deletion**: for any path that a Sonarr server may report for the series, the
first item listed in the folder may be deleted, and nothing else. -/
theorem wp_deleteConsolidated (ctx : DeletionContext) :
    Prog.wp (Permits holds) P (deleteConsolidated cfg ctx) (fun _ => True) (fun _ => True) ↔
      ∀ seriesId, truthyId ctx.item.sonarrSeriesId = some seriesId →
      ∀ srv ∈ getSonarrServers cfg,
        Addressable (sonarrCreds cfg srv.base srv.apiKey) seriesId →
      ∀ series, holds (.sonarrSeriesById (sonarrCreds cfg srv.base srv.apiKey).1
        (sonarrCreds cfg srv.base srv.apiKey).2 seriesId) series → series.path ≠ "" →
      targetPath ctx.item.toQueueEntry series.path ≠ "" →
      Contactable (getClient cfg ctx.serverId) →
      ∀ items, holds (.embyItems (getClient cfg ctx.serverId).1 (getClient cfg ctx.serverId).2
        (targetPath ctx.item.toQueueEntry series.path) (targetType ctx.item.toQueueEntry)) items →
      ∀ item, items.find? (fun item => rstripSlash item.path ==
        rstripSlash (targetPath ctx.item.toQueueEntry series.path)) = some item →
      P (.embyDelete (getClient cfg ctx.serverId).1 (getClient cfg ctx.serverId).2 item.id) := by
  have hdelete : ∀ item : EmbyItem, Prog.wp (Permits holds) P
      (do let ok ← deleteItem cfg item.id ctx.serverId
          if ok then pure () else throw .fatal) (fun _ => True) (fun _ => True) ↔
        (Contactable (getClient cfg ctx.serverId) →
          P (.embyDelete (getClient cfg ctx.serverId).1 (getClient cfg ctx.serverId).2
            item.id)) := by
    intro item
    have hafter : ∀ ok : Bool, Prog.wp (Permits holds) P
        (if ok then pure () else throw Fault.fatal : Act Unit) (fun _ => True) (fun _ => True) ↔
          True := fun ok => by cases ok <;> simp
    simp only [Prog.wp_bind, hafter, wp_deleteItem]
    split_ifs with h <;> simp [h]
  have htarget : ∀ seriesPath, Prog.wp (Permits holds) P
      (do match ← consolidatedTarget cfg ctx seriesPath with
          | none => pure ()
          | some item => do
              let ok ← deleteItem cfg item.id ctx.serverId
              if ok then pure () else throw .fatal) (fun _ => True) (fun _ => True) ↔
        (targetPath ctx.item.toQueueEntry seriesPath ≠ "" →
          Contactable (getClient cfg ctx.serverId) →
          ∀ items, holds (.embyItems (getClient cfg ctx.serverId).1
            (getClient cfg ctx.serverId).2 (targetPath ctx.item.toQueueEntry seriesPath)
            (targetType ctx.item.toQueueEntry)) items →
          ∀ item, items.find? (fun item => rstripSlash item.path ==
            rstripSlash (targetPath ctx.item.toQueueEntry seriesPath)) = some item →
          P (.embyDelete (getClient cfg ctx.serverId).1 (getClient cfg ctx.serverId).2
            item.id)) := by
    intro seriesPath
    rw [Prog.wp_bind, searches_consolidatedTarget hP ctx seriesPath _ True]
    simp only [Prog.wp_pure, hdelete, true_and, implies_true, and_true]
    constructor
    · intro h hpath hclient items hitems item hitem
      exact h item ⟨⟨hpath, hclient⟩, items, hitems, hitem⟩ hclient
    · rintro h item ⟨⟨hpath, hclient⟩, items, hitems, hitem⟩ _
      exact h hpath hclient items hitems item hitem
  rw [deleteConsolidated]
  -- without a series there is no path, and the deletion ends
  cases hid : truthyId ctx.item.sonarrSeriesId with
  | none => simp
  | some seriesId =>
      rw [Prog.wp_bind, searches_sonarrGetSeriesByIdAny hP seriesId _ True]
      simp only [Option.map_none, Option.map_some, Option.getD_none, Option.getD_some, if_true,
        Prog.wp_ite, Prog.wp_pure, htarget, true_and, implies_true, and_true, Option.some.injEq,
        forall_eq']
      constructor
      · intro h srv hsrv haddr series hseries
        exact h series ⟨srv, hsrv, haddr, hseries⟩
      · rintro h series ⟨srv, hsrv, haddr, hseries⟩
        exact h srv hsrv haddr series hseries

/-- **The torrent step** acts on the hashes it was handed and on no others, and never raises. -/
theorem wp_qbitStep {ctx : DeletionContext}
    (hops : ∀ found ∈ ctx.handed, ∀ url op, op.hash = none ∨ op.hash = some found.hash →
      P (.qbit url op)) :
    Prog.wp (Permits holds) P (qbitStep cfg ctx) (fun ctx' => ctx' = ctx) fun _ => False := by
  have hone : ∀ found ∈ ctx.handed, ∀ {R : Unit → Prop}, R () → Prog.wp (Permits holds) P
      (handleQbit cfg found.hash ctx.qbitAction ctx.qbitTag) R fun _ => False :=
    fun found hfound _ hR => wp_handleQbit hP _ _ (hops found hfound) hR
  have hall : ∀ l : List String, (∀ h ∈ l, (⟨h, true⟩ : FoundHash) ∈ ctx.handed) →
      Prog.wp (Permits holds) P
        (l.forM fun h => handleQbit cfg h ctx.qbitAction ctx.qbitTag) (fun _ => True)
        fun _ => False := by
    intro l
    induction l with
    | nil => exact fun _ => (Prog.wp_pure _).2 trivial
    | cons h l ih =>
        intro hl
        exact (Prog.wp_bind _ _).2 (hone ⟨h, true⟩ (hl h (List.mem_cons_self ..))
          (ih fun h' hh' => hl h' (List.mem_cons_of_mem _ hh')))
  rw [qbitStep]
  split_ifs with hdry hhashes
  · exact (Prog.wp_pure _).2 rfl
  · refine (Prog.wp_bind _ _).2 (Prog.wp_mono (fun _ _ => (Prog.wp_pure _).2 rfl) (fun _ => id)
      (hall _ fun h hh => ?_))
    rw [DeletionContext.handed, if_neg hhashes]
    exact List.mem_map_of_mem hh
  · rw [not_not] at hhashes
    have hhanded : ctx.handed = ctx.torrentHash.toList := by
      rw [DeletionContext.handed, if_pos hhashes]
    cases hhash : ctx.torrentHash with
    | none => exact (Prog.wp_pure _).2 rfl
    | some found =>
        refine (Prog.wp_ite _ _ _).2 ⟨fun _ => (Prog.wp_pure _).2 rfl, fun _ =>
          (Prog.wp_bind _ _).2 (hone found ?_ ((Prog.wp_pure _).2 rfl))⟩
        simp [hhanded, hhash]

end Rules

end Hygie
