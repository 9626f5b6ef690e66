/-
**Resuming a deletion.**

The nine steps of a deletion change services that cannot be rolled back.  When a step fails, or the
process ends, the row is tried again from the first step, on services from which a part has already
been removed.  A removal that finds nothing left is no failure for a season or a series, nor for a
title that was never matched.  For a single title it is one: the media server and Radarr or Sonarr
answer 404, the step raises, and the steps after it are never reached again.

Main definitions:

* `Removal`, `mediaTarget`, `arrTarget` — what the two steps that may raise are to remove;
* `attempt` — the services after the first steps of an attempt;
* `Completed`, `Resumes` — everything that the row stood for is gone, and the pipeline returns
  `True`;
* `Resumable` — the condition, on the services that the earlier attempt has left.

Main results:

* `exec_mediaServerStep`, `exec_arrStep`, `exec_qbitStep` — **the steps that remove something**;
* `resumes_iff` — **when a deletion can be resumed**;
* `ready_mediaTarget_of_group`, `not_resumable_of_direct` — the media server is no obstacle to a
  season or a series; a single title that is gone from it can never be finished.
-/

import Hygie.DeletionPipeline
import Hygie.ServiceState

set_option relaxedAutoImplicit false
set_option autoImplicit false

namespace Hygie

open PyText

/-! ### What is to be removed -/

/-- Something that a step is to remove; there may be nothing to do. -/
inductive Removal
  | nothing
  | item (url id : String)
  | plexItem (url ratingKey : String)
  | movie (url : String) (id : ℤ)
  | file (url : String) (id : ℤ)
  | files (url : String) (ids : List ℤ)
  deriving DecidableEq, Repr

namespace Removal

/-- The service does not answer 404; it never does for a group of files. -/
def Held (s : Services) : Removal → Prop
  | nothing => True
  | item url id => ∃ it ∈ s.items url, it.id = id
  | plexItem url ratingKey => ratingKey ∈ s.plexItems url
  | movie url id => ∃ m ∈ (s.arr url).movies, m.id = id
  | file url id => ∃ ef ∈ (s.arr url).episodeFiles, ef.id = id
  | files _ _ => True

instance (s : Services) : (r : Removal) → Decidable (r.Held s)
  | nothing => inferInstanceAs (Decidable True)
  | item url id => inferInstanceAs (Decidable (∃ it ∈ s.items url, it.id = id))
  | plexItem url ratingKey => inferInstanceAs (Decidable (ratingKey ∈ s.plexItems url))
  | movie url id => inferInstanceAs (Decidable (∃ m ∈ (s.arr url).movies, m.id = id))
  | file url id => inferInstanceAs (Decidable (∃ ef ∈ (s.arr url).episodeFiles, ef.id = id))
  | files _ _ => inferInstanceAs (Decidable True)

/-- What the services hold afterwards. -/
def apply (s : Services) : Removal → Services
  | nothing => s
  | item url id => s.removeItem url id
  | plexItem url ratingKey => s.removePlexItem url ratingKey
  | movie url id => s.removeMovie url id
  | file url id => s.removeFiles url [id]
  | files url ids => s.removeFiles url ids

/-- It is no longer there. -/
def Gone (s : Services) : Removal → Prop
  | nothing => True
  | item url id => ∀ it ∈ s.items url, it.id ≠ id
  | plexItem url ratingKey => ratingKey ∉ s.plexItems url
  | movie url id => ∀ m ∈ (s.arr url).movies, m.id ≠ id
  | file url id => ∀ ef ∈ (s.arr url).episodeFiles, ef.id ≠ id
  | files url ids => ∀ ef ∈ (s.arr url).episodeFiles, ef.id ∉ ids

end Removal

/-- A removal is known, and the service does not answer 404. -/
def Ready (target : Option Removal) (s : Services) : Prop := ∃ r, target = some r ∧ r.Held s

/-- Carry out a removal, if it is known what to remove. -/
def carryOut (target : Option Removal) (s : Services) : Bool × Services :=
  match target with
  | some r => if r.Held s then (true, r.apply s) else (false, s)
  | none => (false, s)

section Targets

variable (cfg : Config) (item : Item)

/-- The media server of a row; without the key it is server `0`. -/
def Item.server (item : Item) : String := (truthyText item.serverId).getD "0"

/-- The library item of a consolidated row, in the folder that Sonarr reports. -/
def consolidatedItem (s : Services) : Option EmbyItem :=
  (truthyId item.sonarrSeriesId).bind fun seriesId =>
    let seriesPath := ((seriesAt cfg seriesId s.arr).map SonarrSeries.path).getD ""
    if seriesPath = "" then none
    else itemAt cfg (targetPath item.toQueueEntry seriesPath) (targetType item.toQueueEntry)
      item.server s.items

/-- The library item of any other row; nothing stands for a server that cannot be contacted. -/
def directTarget : Option Removal :=
  let server := (cfg.mediaServers.find? (·.id == item.server)).getD noServer
  if isPlex cfg server then
    (buildPlexClient server).map fun plex =>
      .plexItem plex.url (getServerItemId cfg server item.toQueueRow)
  else if Contactable (getClient cfg item.server) then
    some (.item (getClient cfg item.server).1 item.embyId)
  else none

/-- What `MediaServerStep` is to remove. -/
def mediaTarget (s : Services) : Option Removal :=
  if item.embyId = "" then some .nothing
  else if startsWith item.embyId "sonarr-" then
    match consolidatedItem cfg item s with
    | some found => some (.item (getClient cfg item.server).1 found.id)
    | none => some .nothing
  else directTarget cfg item

end Targets

/-- A film of a server. -/
def movieTarget (cfg : Config) (radarrId : ℤ) (target : String × String) : Option Removal :=
  let creds := radarrCreds cfg target.1 target.2
  if Addressable creds radarrId then some (.movie creds.1 radarrId) else none

/-- An episode file of a server. -/
def fileTarget (episodeFileId : ℤ) (target : String × String) : Option Removal :=
  if target.1 = "" ∨ target.2 = "" ∨ episodeFileId = 0 then none
  else some (.file target.1 episodeFileId)

/-- The files of a group on a server. -/
def groupTarget (row : QueueEntry) (w : String → ArrLibrary) (target : String × String) :
    Option Removal :=
  if target.1 = "" ∨ target.2 = "" then none
  else some (.files target.1 (groupFiles row.seasonNumber (w target.1) (row.sonarrSeriesId.getD 0)))

/-- What `ArrStep` is to remove; nothing stands for a server that cannot be told. -/
def arrTarget (cfg : Config) (row : QueueEntry) (w : String → ArrLibrary) : Option Removal :=
  if row.mediaType = "Movie" then
    match truthyId row.radarrId with
    | some rid => (radarrTargetAt cfg row.arrServerUrl row.filePath w).bind (movieTarget cfg rid)
    | none =>
        match radarrAt cfg row.filePath w with
        | some found => movieTarget cfg found.1 found.2
        | none => some .nothing
  else if isConsolidatedRow row then
    (sonarrTargetAt cfg row.arrServerUrl row.filePath w).bind (groupTarget row w)
  else
    match truthyId row.sonarrId with
    | some sid => (sonarrTargetAt cfg row.arrServerUrl row.filePath w).bind (fileTarget sid)
    | none =>
        match sonarrAt cfg row.filePath w with
        | some found => fileTarget found.1 found.2
        | none => some .nothing

/-! ### Removals -/

section Removals

variable {s : Services} {target : Option Removal} {r : Removal}

theorem carryOut_of_held (h : r.Held s) : carryOut (some r) s = (true, r.apply s) := if_pos h

theorem carryOut_of_not_held (h : ¬ r.Held s) : carryOut (some r) s = (false, s) := if_neg h

@[simp] theorem carryOut_none : carryOut none s = (false, s) := rfl

theorem carryOut_fst_iff : (carryOut target s).1 = true ↔ Ready target s := by
  cases target with
  | none => simp [Ready]
  | some r =>
      by_cases hheld : r.Held s
      · simp [carryOut_of_held hheld, Ready, hheld]
      · simp [carryOut_of_not_held hheld, Ready, hheld]

instance (target : Option Removal) (s : Services) : Decidable (Ready target s) :=
  decidable_of_iff _ carryOut_fst_iff

/-- Nothing changes when a removal fails. -/
theorem carryOut_of_not_ready (h : ¬ Ready target s) : carryOut target s = (false, s) := by
  cases target with
  | none => rfl
  | some r => exact carryOut_of_not_held fun hheld => h ⟨r, rfl, hheld⟩

/-- What a service answers 404 for is gone. -/
theorem gone_of_not_held (h : ¬ r.Held s) : r.Gone s := by
  cases r with
  | nothing => trivial
  | files => exact absurd trivial h
  | _ =>
      simp only [Removal.Held, not_exists, not_and] at h
      exact h

theorem gone_apply : r.Gone (r.apply s) := by
  cases r with
  | nothing => trivial
  | plexItem => simp [Removal.Gone, Removal.apply, Services.removePlexItem]
  | item => simp [Removal.Gone, Removal.apply, Services.removeItem]
  | movie => simp [Removal.Gone, Removal.apply, Services.removeMovie, ArrLibrary.withoutMovie]
  | file => simp [Removal.Gone, Removal.apply, Services.removeFiles, ArrLibrary.withoutFiles]
  | files => simp [Removal.Gone, Removal.apply, Services.removeFiles, ArrLibrary.withoutFiles]

/-- **After a removal**, whether it succeeds or not, the thing is gone. -/
theorem gone_carryOut : r.Gone (carryOut (some r) s).2 := by
  by_cases hheld : r.Held s
  · rw [carryOut_of_held hheld]
    exact gone_apply
  · rw [carryOut_of_not_held hheld]
    exact gone_of_not_held hheld

/-- A removal from a media server. -/
def Removal.OnMediaServer : Removal → Prop
  | nothing | item _ _ | plexItem _ _ => True
  | _ => False

/-- A removal from Radarr or Sonarr. -/
def Removal.InArr : Removal → Prop
  | item _ _ | plexItem _ _ => False
  | _ => True

theorem Removal.OnMediaServer.apply_arr (h : r.OnMediaServer) : (r.apply s).arr = s.arr := by
  cases r with
  | nothing | item | plexItem => rfl
  | movie | file | files => exact h.elim

theorem Removal.InArr.held_congr {s' : Services} (h : r.InArr) (hs : s'.arr = s.arr) :
    r.Held s' ↔ r.Held s := by
  cases r with
  | item | plexItem => exact h.elim
  | nothing | movie | file | files => simp only [Removal.Held, hs]

theorem onMediaServer_mediaTarget {cfg : Config} {item : Item}
    (h : mediaTarget cfg item s = some r) :
    r.OnMediaServer := by
  simp only [mediaTarget] at h
  split_ifs at h
  · obtain rfl := Option.some.inj h
    trivial
  · split at h
    · obtain rfl := Option.some.inj h
      trivial
    · obtain rfl := Option.some.inj h
      trivial
  · simp only [directTarget] at h
    split_ifs at h
    · obtain ⟨plex, -, rfl⟩ := Option.map_eq_some_iff.1 h
      trivial
    · obtain rfl := Option.some.inj h
      trivial

theorem inArr_movieTarget {cfg : Config} {radarrId : ℤ} {server : String × String}
    (h : movieTarget cfg radarrId server = some r) : r.InArr := by
  simp only [movieTarget] at h
  split_ifs at h
  obtain rfl := Option.some.inj h
  trivial

theorem inArr_fileTarget {episodeFileId : ℤ} {server : String × String}
    (h : fileTarget episodeFileId server = some r) : r.InArr := by
  rw [fileTarget] at h
  split_ifs at h
  obtain rfl := Option.some.inj h
  trivial

theorem inArr_groupTarget {row : QueueEntry} {w : String → ArrLibrary} {server : String × String}
    (h : groupTarget row w server = some r) : r.InArr := by
  rw [groupTarget] at h
  split_ifs at h
  obtain rfl := Option.some.inj h
  trivial

theorem inArr_arrTarget {cfg : Config} {row : QueueEntry} {w : String → ArrLibrary}
    (h : arrTarget cfg row w = some r) : r.InArr := by
  rw [arrTarget] at h
  split_ifs at h
  · split at h
    · obtain ⟨server, -, hserver⟩ := Option.bind_eq_some_iff.1 h
      exact inArr_movieTarget hserver
    · split at h
      · exact inArr_movieTarget h
      · obtain rfl := Option.some.inj h
        trivial
  · obtain ⟨server, -, hserver⟩ := Option.bind_eq_some_iff.1 h
    exact inArr_groupTarget hserver
  · split at h
    · obtain ⟨server, -, hserver⟩ := Option.bind_eq_some_iff.1 h
      exact inArr_fileTarget hserver
    · split at h
      · exact inArr_fileTarget h
      · obtain rfl := Option.some.inj h
        trivial

end Removals

/-! ### The steps that remove something -/

section Steps

variable {notified : ℤ → Bool} {cfg : Config} {ctx : DeletionContext} {s : Services} {r : Removal}

/-- A program carries out a removal and returns whether it succeeded. -/
def Performs (notified : ℤ → Bool) (x : Act Bool) (s : Services) (target : Option Removal) : Prop :=
  Prog.exec (serve notified) x s = (.ok (carryOut target s).1, (carryOut target s).2)

theorem performs_of_eq_ite {x : Act Bool}
    (h : Prog.exec (serve notified) x s =
      if r.Held s then (.ok true, r.apply s) else (.ok false, s)) :
    Performs notified x s (some r) := by
  rw [Performs, h]
  split_ifs with hheld
  · rw [carryOut_of_held hheld]
  · rw [carryOut_of_not_held hheld]

theorem performs_deleteItem {itemId serverId : String}
    (hclient : Contactable (getClient cfg serverId)) :
    Performs notified (deleteItem cfg itemId serverId) s
      (some (.item (getClient cfg serverId).1 itemId)) :=
  performs_of_eq_ite (exec_deleteItem hclient)

/-- What `delete_server_item` removes. -/
theorem performs_deleteServerItem (notified : ℤ → Bool) (cfg : Config) (ctx : DeletionContext)
    (s : Services) :
    Performs notified
      (deleteServerItem cfg ((cfg.mediaServers.find? (·.id == ctx.serverId)).getD noServer)
        ctx.item.toQueueRow ctx.serverId) s (directTarget cfg ctx.item) := by
  have hserverId : ctx.serverId ≠ "" := truthyText_getD_ne_empty ctx.item.serverId
  obtain ⟨server, hserver⟩ : ∃ server,
      (cfg.mediaServers.find? (·.id == ctx.serverId)).getD noServer = server := ⟨_, rfl⟩
  have htarget : directTarget cfg ctx.item =
      if isPlex cfg server then
        (buildPlexClient server).map fun plex =>
          .plexItem plex.url (getServerItemId cfg server ctx.item.toQueueRow)
      else if Contactable (getClient cfg ctx.serverId) then
        some (.item (getClient cfg ctx.serverId).1 ctx.item.embyId)
      else none := by
    rw [← hserver]
    rfl
  rw [htarget, hserver, deleteServerItem, if_pos hserverId]
  split_ifs with hplex hclient
  · cases hbuild : buildPlexClient server with
    | none => rfl
    | some plex =>
        have hurl : plex.url ≠ "" := by
          simp only [buildPlexClient] at hbuild
          split_ifs at hbuild with hset
          obtain rfl := Option.some.inj hbuild
          exact hset.2.1
        have hexec : Prog.exec (serve notified)
            (plex.deleteItem (getServerItemId cfg server ctx.item.toQueueRow)) s = _ :=
          exec_plexDeleteItem hurl
        exact performs_of_eq_ite hexec
  · exact performs_deleteItem hclient
  · exact exec_deleteItem_of_not hclient

/-- A found item is listed by a server that can be contacted. -/
theorem of_itemAt {path serverId : String} {types : ItemType} {found : EmbyItem}
    (h : itemAt cfg path types serverId s.items = some found) :
    Contactable (getClient cfg serverId) ∧
      Removal.Held s (.item (getClient cfg serverId).1 found.id) := by
  simp only [itemAt] at h
  split_ifs at h with hclient
  refine ⟨hclient.2, ?_⟩
  obtain ⟨it, hit, rfl⟩ := List.mem_map.1 (List.mem_of_find?_eq_some h)
  exact ⟨it, (List.mem_filter.1 hit).1, rfl⟩

/-- The removal of the library item of a consolidated row never fails. -/
theorem exec_deleteConsolidated (notified : ℤ → Bool) (cfg : Config) (s : Services)
    (hid : ctx.item.embyId ≠ "")
    (hgroup : startsWith ctx.item.embyId "sonarr-" = true) :
    Ready (mediaTarget cfg ctx.item s) s ∧
      Prog.exec (serve notified) (deleteConsolidated cfg ctx) s =
        (.ok (), (carryOut (mediaTarget cfg ctx.item s) s).2) := by
  rw [mediaTarget, if_neg hid, if_pos hgroup, deleteConsolidated, consolidatedItem]
  cases truthyId ctx.item.sonarrSeriesId with
  | none => exact ⟨⟨_, rfl, trivial⟩, rfl⟩
  | some seriesId =>
      simp only [Option.bind_some]
      rw [Prog.exec_bind_ok (exec_sonarrGetSeriesByIdAny seriesId)]
      obtain ⟨seriesPath, hpath⟩ : ∃ seriesPath,
          ((seriesAt cfg seriesId s.arr).map SonarrSeries.path).getD "" = seriesPath := ⟨_, rfl⟩
      rw [hpath]
      split_ifs with hempty
      · exact ⟨⟨_, rfl, trivial⟩, rfl⟩
      · have hlookup : Prog.exec (serve notified) (consolidatedTarget cfg ctx seriesPath) s =
            (.ok (itemAt cfg (targetPath ctx.item.toQueueEntry seriesPath)
              (targetType ctx.item.toQueueEntry) ctx.item.server s.items), s) :=
          exec_findItemByPath _ _ _
        rw [Prog.exec_bind_ok hlookup]
        cases hfound : itemAt cfg (targetPath ctx.item.toQueueEntry seriesPath)
            (targetType ctx.item.toQueueEntry) ctx.item.server s.items with
        | none => exact ⟨⟨_, rfl, trivial⟩, rfl⟩
        | some found =>
            obtain ⟨hclient, hheld⟩ := of_itemAt hfound
            have hdelete : Prog.exec (serve notified) (deleteItem cfg found.id ctx.serverId) s =
                (.ok true,
                  (carryOut (some (.item (getClient cfg ctx.item.server).1 found.id)) s).2) := by
              have hperforms : Performs notified (deleteItem cfg found.id ctx.item.server) s _ :=
                performs_deleteItem hclient
              rw [Performs, carryOut_of_held hheld] at hperforms
              rw [carryOut_of_held hheld]
              exact hperforms
            refine ⟨⟨_, rfl, hheld⟩, ?_⟩
            simp only [Prog.exec_bind_ok hdelete]
            rfl

/-- **The step of the media server** raises exactly when its removal fails. -/
theorem exec_mediaServerStep (hdry : ctx.dryRun = false)
    (hserver : ctx.server = cfg.mediaServers.find? (·.id == ctx.serverId)) :
    Prog.exec (serve notified) (mediaServerStep cfg ctx) s =
      if Ready (mediaTarget cfg ctx.item s) s then
        (.ok ctx, (carryOut (mediaTarget cfg ctx.item s) s).2)
      else (.error .fatal, s) := by
  rw [mediaServerStep]
  by_cases hid : ctx.item.embyId = ""
  · have htarget : mediaTarget cfg ctx.item s = some .nothing := if_pos hid
    rw [if_pos (.inr hid), htarget, if_pos ⟨_, rfl, trivial⟩]
    rfl
  · rw [if_neg (by simp [hdry, hid])]
    by_cases hgroup : startsWith ctx.item.embyId "sonarr-" = true
    · obtain ⟨hready, hexec⟩ := exec_deleteConsolidated notified cfg s hid hgroup
      rw [if_pos hgroup, if_pos hready, Prog.exec_bind_ok hexec]
      rfl
    · have htarget : mediaTarget cfg ctx.item s = directTarget cfg ctx.item := by
        rw [mediaTarget, if_neg hid, if_neg hgroup]
      have hdelete : Prog.exec (serve notified) _ s = _ :=
        performs_deleteServerItem notified cfg ctx s
      rw [if_neg hgroup, htarget, hserver, Prog.exec_bind_ok hdelete]
      by_cases hready : Ready (directTarget cfg ctx.item) s
      · rw [if_pos hready, carryOut_fst_iff.2 hready]
        rfl
      · rw [if_neg hready, carryOut_of_not_ready hready]
        rfl

theorem performs_radarrDelete {radarrId : ℤ} {deleteFiles : Bool} {target : String × String} :
    Performs notified (radarrDelete cfg radarrId deleteFiles target.1 target.2) s
      (movieTarget cfg radarrId target) := by
  have hexec : Prog.exec (serve notified)
      (radarrDelete cfg radarrId deleteFiles target.1 target.2) s = _ := exec_radarrDelete
  simp only [movieTarget]
  split_ifs with hcreds
  · rw [if_congr (and_iff_right hcreds) rfl rfl] at hexec
    exact performs_of_eq_ite hexec
  · rw [if_neg fun h => hcreds h.1] at hexec
    exact hexec

theorem performs_deleteFileAt {episodeFileId : ℤ} {target : String × String} :
    Performs notified (removeAt (sonarrDeleteFileAt episodeFileId) target) s
      (fileTarget episodeFileId target) := by
  rw [removeAt]
  split_ifs with hempty
  · have htarget : fileTarget episodeFileId target = none := if_pos (by tauto)
    rw [htarget]
    rfl
  · rw [not_or] at hempty
    have hexec : Prog.exec (serve notified) (sonarrDeleteFileAt episodeFileId target.1 target.2) s =
        _ := exec_sonarrDeleteFileAt hempty.1
    by_cases hid : episodeFileId = 0
    · have htarget : fileTarget episodeFileId target = none := if_pos (.inr (.inr hid))
      rw [if_neg fun h => h.1 hid] at hexec
      rw [htarget]
      exact hexec
    · have htarget : fileTarget episodeFileId target = some (.file target.1 episodeFileId) :=
        if_neg (by tauto)
      rw [if_congr (and_iff_right hid) rfl rfl] at hexec
      rw [htarget]
      exact performs_of_eq_ite hexec

/-- A removal of Sonarr, on the server that the row resolves to. -/
theorem performs_onSonarrTarget {arrServerUrl : Option String} {filePath : String}
    {remove : String → String → Act Bool} {f : String × String → Option Removal}
    (h : ∀ target, Performs notified (removeAt remove target) s (f target)) :
    Performs notified (onSonarrTarget cfg "" "" arrServerUrl filePath remove) s
      ((sonarrTargetAt cfg arrServerUrl filePath s.arr).bind f) := by
  rw [Performs, onSonarrTarget, Prog.exec_bind_ok exec_sonarrTarget]
  cases sonarrTargetAt cfg arrServerUrl filePath s.arr with
  | none => rfl
  | some target => exact h target

theorem performs_deleteGroup {row : QueueEntry} :
    Performs notified
      (match row.seasonNumber with
        | some n => sonarrDeleteSeason cfg (row.sonarrSeriesId.getD 0) n "" "" row.arrServerUrl
            row.filePath
        | none => sonarrDeleteSeries cfg (row.sonarrSeriesId.getD 0) "" "" row.arrServerUrl
            row.filePath) s
      ((sonarrTargetAt cfg row.arrServerUrl row.filePath s.arr).bind (groupTarget row s.arr)) := by
  cases hseason : row.seasonNumber with
  | some n =>
      refine performs_onSonarrTarget fun target => ?_
      rw [removeAt, groupTarget, hseason]
      split_ifs with hempty
      · rfl
      · exact exec_sonarrDeleteSeasonAt fun hurl => hempty (.inl hurl)
  | none =>
      refine performs_onSonarrTarget fun target => ?_
      rw [removeAt, groupTarget, hseason]
      split_ifs with hempty
      · rfl
      · exact exec_sonarrDeleteSeriesAt fun hurl => hempty (.inl hurl)

/-- An episode file that was found by its path lies on a server with an address and a key. -/
theorem of_sonarrAt {filePath : String} {w : String → ArrLibrary} {found : ℤ × String × String}
    (h : sonarrAt cfg filePath w = some found) : found.2.1 ≠ "" ∧ found.2.2 ≠ "" := by
  simp only [sonarrAt] at h
  split_ifs at h with hpath
  obtain ⟨srv, hsrv, hfind⟩ := List.exists_of_findSome?_eq_some h
  split_ifs at hfind with hbase
  obtain ⟨series, -, hseries⟩ := List.exists_of_findSome?_eq_some hfind
  obtain ⟨ef, -, rfl⟩ := Option.map_eq_some_iff.1 hseries
  exact ⟨hbase, (getArrServers_complete hsrv).2⟩

/-- **What `_delete_from_arr` removes.** -/
theorem performs_deleteFromArr {row : QueueEntry} :
    Performs notified (deleteFromArr cfg row) s (arrTarget cfg row s.arr) := by
  rw [deleteFromArr, arrTarget]
  split_ifs with hmovie hgroup
  · cases truthyId row.radarrId with
    | some rid =>
        show Performs notified (radarrDeleteById ..) s _
        rw [Performs, exec_radarrDeleteById]
        cases radarrTargetAt cfg row.arrServerUrl row.filePath s.arr with
        | none => rfl
        | some target => exact performs_radarrDelete
    | none =>
        show Performs notified (radarrFindByPath cfg row.filePath >>= _) s _
        rw [Performs, Prog.exec_bind_ok (exec_radarrFindByPath _)]
        cases radarrAt cfg row.filePath s.arr with
        | none => rfl
        | some found => exact performs_radarrDelete
  · exact performs_deleteGroup
  · cases truthyId row.sonarrId with
    | some sid => exact performs_onSonarrTarget fun _ => performs_deleteFileAt
    | none =>
        show Performs notified (sonarrFindByPathFull cfg row.filePath >>= _) s _
        rw [Performs, Prog.exec_bind_ok (exec_sonarrFindByPathFull _)]
        cases hfound : sonarrAt cfg row.filePath s.arr with
        | none => rfl
        | some found =>
            obtain ⟨hurl, hkey⟩ := of_sonarrAt hfound
            have htarget : sonarrTarget cfg found.2.1 found.2.2 none "" = pure (some found.2) :=
              if_neg (by tauto)
            show Performs notified (onSonarrTarget cfg found.2.1 found.2.2 none "" _) s _
            rw [Performs, onSonarrTarget, htarget]
            exact performs_deleteFileAt

/-- **The step of Radarr and Sonarr** raises exactly when its removal fails. -/
theorem exec_arrStep (hdry : ctx.dryRun = false) :
    Prog.exec (serve notified) (arrStep cfg ctx) s =
      if Ready (arrTarget cfg ctx.item.toQueueEntry s.arr) s then
        (.ok ctx, (carryOut (arrTarget cfg ctx.item.toQueueEntry s.arr) s).2)
      else (.error .fatal, s) := by
  have hdelete : Prog.exec (serve notified) (deleteFromArr cfg ctx.item.toQueueEntry) s = _ :=
    performs_deleteFromArr
  rw [arrStep, if_neg (by simp [hdry]), Prog.exec_bind_ok hdelete]
  by_cases hready : Ready (arrTarget cfg ctx.item.toQueueEntry s.arr) s
  · rw [if_pos hready, carryOut_fst_iff.2 hready]
    rfl
  · rw [if_neg hready, carryOut_of_not_ready hready]
    rfl

/-- What `SeerrStep` does to the requests. -/
def Services.withoutRequest (cfg : Config) (row : QueueEntry) (s : Services) : Services :=
  match truthyId row.seerrId with
  | some id => s.deleteRequest cfg id
  | none => s

theorem exec_seerrStep (hdry : ctx.dryRun = false) :
    Prog.exec (serve notified) (seerrStep cfg ctx) s =
      (.ok ctx, s.withoutRequest cfg ctx.item.toQueueEntry) := by
  rw [seerrStep, if_neg (by simp [hdry]), Services.withoutRequest]
  cases truthyId ctx.item.seerrId with
  | none => rfl
  | some id =>
      obtain ⟨ok, hok⟩ := exec_seerrDeleteRequest notified cfg s id
      show Prog.exec (serve notified) (seerrDeleteRequest cfg id >>= fun _ => pure ctx) s = _
      rw [Prog.exec_bind_ok hok]
      rfl

/-- The hashes that the torrent step acts on. -/
def DeletionContext.hashes (ctx : DeletionContext) : List String :=
  if ctx.torrentHashes = [] then (ctx.torrentHash.map FoundHash.hash).toList else ctx.torrentHashes

/-- **The torrent step** acts on one hash after the other. -/
theorem exec_qbitStep (hdry : ctx.dryRun = false) (htag : ctx.qbitTag ≠ "") :
    Prog.exec (serve notified) (qbitStep cfg ctx) s =
      (.ok ctx, ctx.hashes.foldl (Services.handleTorrent cfg ctx.qbitAction ctx.qbitTag) s) := by
  have hall : ∀ (hashes : List String) (s : Services), Prog.exec (serve notified)
      (hashes.forM fun h => handleQbit cfg h ctx.qbitAction ctx.qbitTag) s =
        (.ok (), hashes.foldl (Services.handleTorrent cfg ctx.qbitAction ctx.qbitTag) s) := by
    intro hashes
    induction hashes with
    | nil => exact fun s => rfl
    | cons h hashes ih =>
        intro s
        show Prog.exec (serve notified) (handleQbit cfg h ctx.qbitAction ctx.qbitTag >>= fun _ =>
          hashes.forM fun h => handleQbit cfg h ctx.qbitAction ctx.qbitTag) s = _
        rw [Prog.exec_bind_ok (exec_handleQbit htag), ih]
        rfl
  rw [qbitStep, if_neg (by simp [hdry]), DeletionContext.hashes]
  by_cases hgroup : ctx.torrentHashes = []
  · rw [if_neg (by simp [hgroup]), if_pos hgroup]
    cases ctx.torrentHash with
    | none => rfl
    | some found =>
        by_cases hempty : found.hash = ""
        · simp [hempty, Services.handleTorrent]
        · show Prog.exec (serve notified) (if found.hash = "" then _ else _) s = _
          rw [if_neg hempty, Prog.exec_bind_ok (exec_handleQbit htag)]
          rfl
  · rw [if_pos hgroup, if_neg hgroup, Prog.exec_bind_ok (hall _ _)]
    rfl

theorem exec_statsStep : Prog.exec (serve notified) (statsStep ctx) s = (.ok ctx, s) := by
  rw [statsStep]
  split_ifs with hdry
  · rfl
  · have hstats : Prog.exec (serve notified) (send (.addStats ctx.sizeBytes ctx.item.libraryId)) s =
        (.ok .noContent, s) := exec_send_ok rfl
    refine Prog.exec_tryCatch_ok ?_
    rw [Prog.exec_bind_ok hstats]
    rfl

theorem exec_discordNotifyStep :
    Prog.exec (serve notified) (discordNotifyStep ctx) s = (.ok ctx, s) := by
  have hsend : Prog.exec (serve notified) (send (.sendNow ctx.item.id)) s = (.ok .noContent, s) :=
    exec_send_ok rfl
  have hmark : Prog.exec (serve notified) (markNotified ctx.item.id) s = (.ok (), s) := by
    rw [markNotified]
    split_ifs
    · have hrecord : Prog.exec (serve notified) (send (.markNow ctx.item.id)) s =
          (.ok .noContent, s) := exec_send_ok rfl
      rw [Prog.exec_bind_ok hrecord]
      rfl
    · rfl
  have halready : ∃ already,
      Prog.exec (serve notified) (alreadyNotified ctx.item.id) s = (.ok already, s) := by
    rw [alreadyNotified]
    split_ifs
    · have hrecorded : Prog.exec (serve notified) (send (.notifiedNow ctx.item.id)) s =
          (.ok (.ok (notified ctx.item.id)), s) := exec_send_ok rfl
      refine ⟨notified ctx.item.id, ?_⟩
      rw [Prog.exec_bind_ok hrecorded]
      rfl
    · exact ⟨false, rfl⟩
  obtain ⟨already, halready⟩ := halready
  rw [discordNotifyStep]
  split_ifs with hdry
  · rfl
  · refine Prog.exec_tryCatch_ok ?_
    rw [Prog.exec_bind_ok halready]
    split_ifs
    · rfl
    · rw [Prog.exec_bind_ok hsend, Prog.exec_bind_ok hmark]
      rfl

/-! ### The steps that look something up -/

/-- What the steps after the lookups are handed. -/
structure Handover (ctx ctx' : DeletionContext) : Prop where
  item : ctx'.item = ctx.item
  dryRun : ctx'.dryRun = ctx.dryRun
  qbitAction : ctx'.qbitAction = ctx.qbitAction
  qbitTag : ctx'.qbitTag = ctx.qbitTag
  torrentHash : ctx'.torrentHash = ctx.torrentHash
  torrentHashes : ctx'.torrentHashes = ctx.torrentHashes

theorem exec_lookup {α : Type} {x : Act α} (notified : ℤ → Bool) (s : Services)
    (h : Prog.Always (Permits fun _ _ => True) (fun q => q.touches = false) x) :
    (∃ a, Prog.exec (serve notified) x s = (.ok a, s)) ∨
      ∃ e, Prog.exec (serve notified) x s = (.error e, s) := by
  have hstate : (Prog.exec (serve notified) x s).2 = s := exec_of_always h
  rcases hexec : Prog.exec (serve notified) x s with ⟨a | a, s'⟩
  · rw [hexec] at hstate
    exact .inr ⟨a, by rw [← hstate]⟩
  · rw [hexec] at hstate
    exact .inl ⟨a, by rw [← hstate]⟩

/-- A lookup whose result, or whose failure, is noted in the context. -/
theorem exec_noted {α : Type} {x : Act α} {f : α → DeletionContext} {ctx' : DeletionContext}
    (h : Prog.Always (Permits fun _ _ => True) (fun q => q.touches = false) x)
    (hf : ∀ a, Handover ctx (f a)) (hctx' : Handover ctx ctx') :
    ∃ next, Prog.exec (serve notified) (tryCatch (x >>= fun a => pure (f a)) fun _ => pure ctx') s =
      (.ok next, s) ∧ Handover ctx next := by
  rcases exec_lookup notified s h with ⟨a, ha⟩ | ⟨e, he⟩
  · refine ⟨f a, Prog.exec_tryCatch_ok ?_, hf a⟩
    rw [Prog.exec_bind_ok ha]
    rfl
  · refine ⟨ctx', ?_, hctx'⟩
    rw [Prog.exec_tryCatch_error (Prog.exec_bind_error he)]
    rfl

theorem exec_sizeLookupStep (notified : ℤ → Bool) (cfg : Config) (s : Services)
    (hdry : ctx.dryRun = false) :
    ∃ next, Prog.exec (serve notified) (sizeLookupStep cfg ctx) s = (.ok next, s) ∧
      Handover ctx next := by
  have hkept : ∀ size warnings,
      Handover ctx { ctx with sizeBytes := size, stepWarnings := warnings } :=
    fun _ _ => ⟨rfl, rfl, rfl, rfl, rfl, rfl⟩
  rw [sizeLookupStep, if_neg (by simp [hdry])]
  split_ifs with hmovie
  · cases truthyId ctx.item.radarrId with
    | none => exact ⟨ctx, rfl, hkept _ _⟩
    | some rid =>
        have halways : Prog.Always (Permits fun _ _ => True) (fun q => q.touches = false)
            (radarrGetAny cfg rid) := (searches_radarrGetAny (fun _ hq => hq) rid).always
        exact exec_noted halways (fun _ => hkept _ _) (hkept _ _)
  · cases truthyId ctx.item.sonarrSeriesId with
    | none => exact ⟨ctx, rfl, hkept _ _⟩
    | some sid =>
        have halways : Prog.Always (Permits fun _ _ => True) (fun q => q.touches = false)
            (sonarrGetSeriesByIdAny cfg sid) :=
          (searches_sonarrGetSeriesByIdAny (fun _ hq => hq) sid).always
        exact exec_noted halways (fun _ => hkept _ _) (hkept _ _)

/-- The hashes that are found for a row. -/
def rowHashes (cfg : Config) (notified : ℤ → Bool) (row : QueueEntry)
    (s : Services) : List String :=
  if isConsolidatedRow row then
    match (Prog.exec (serve notified) (findTorrentHashesConsolidated cfg row) s).1 with
    | .ok hashes => hashes
    | .error _ => []
  else ((Prog.lookup (serve notified) (findTorrentHash cfg row) s).map FoundHash.hash).toList

/-- The same task, with the hashes that are found. -/
structure HandsOver (cfg : Config) (notified : ℤ → Bool) (s : Services)
    (ctx ctx' : DeletionContext) : Prop where
  item : ctx'.item = ctx.item
  dryRun : ctx'.dryRun = ctx.dryRun
  qbitAction : ctx'.qbitAction = ctx.qbitAction
  qbitTag : ctx'.qbitTag = ctx.qbitTag
  hashes : ctx'.hashes = rowHashes cfg notified ctx.item.toQueueEntry s

theorem exec_torrentHashStep (notified : ℤ → Bool) (cfg : Config) (s : Services)
    (hdry : ctx.dryRun = false) (hhash : ctx.torrentHash = none)
    (hhashes : ctx.torrentHashes = []) :
    ∃ next, Prog.exec (serve notified) (torrentHashStep cfg ctx) s = (.ok next, s) ∧
      HandsOver cfg notified s ctx next := by
  have hgroupLookup : Prog.Always (Permits fun _ _ => True) (fun q => q.touches = false)
      (findTorrentHashesConsolidated cfg ctx.item.toQueueEntry) :=
    always_findTorrentHashesConsolidated (fun _ hq => hq) _
  have hlookup : Prog.Always (Permits fun _ _ => True) (fun q => q.touches = false)
      (findTorrentHash cfg ctx.item.toQueueEntry) := always_findTorrentHash (fun _ hq => hq) _
  rw [torrentHashStep, if_neg (by simp [hdry])]
  by_cases hgroup : isConsolidatedRow ctx.item.toQueueEntry = true
  · rw [if_pos hgroup]
    rcases exec_lookup notified s hgroupLookup with ⟨hashes, hexec⟩ | ⟨e, hexec⟩
    · refine ⟨{ ctx with torrentHashes := hashes }, Prog.exec_tryCatch_ok ?_, rfl, rfl,
        rfl, rfl, ?_⟩
      · rw [Prog.exec_bind_ok hexec]
        rfl
      · rw [rowHashes, if_pos hgroup, hexec]
        simp only [DeletionContext.hashes, hhash]
        split_ifs with hempty
        · simp [hempty]
        · rfl
    · refine ⟨{ ctx with stepWarnings := ctx.stepWarnings ++ ["TorrentHash"] }, ?_, rfl, rfl,
        rfl, rfl, ?_⟩
      · rw [Prog.exec_tryCatch_error (Prog.exec_bind_error hexec)]
        rfl
      · rw [rowHashes, if_pos hgroup, hexec]
        simp [DeletionContext.hashes, hhash, hhashes]
  · rw [if_neg hgroup]
    rcases exec_lookup notified s hlookup with ⟨hash, hexec⟩ | ⟨e, hexec⟩
    · refine ⟨{ ctx with torrentHash := hash }, Prog.exec_tryCatch_ok ?_, rfl, rfl, rfl, rfl, ?_⟩
      · rw [Prog.exec_bind_ok hexec]
        rfl
      · rw [rowHashes, if_neg hgroup, Prog.lookup, hexec]
        simp [DeletionContext.hashes, hhashes]
    · refine ⟨{ ctx with stepWarnings := ctx.stepWarnings ++ ["TorrentHash"] }, ?_, rfl, rfl,
        rfl, rfl, ?_⟩
      · rw [Prog.exec_tryCatch_error (Prog.exec_bind_error hexec)]
        rfl
      · rw [rowHashes, if_neg hgroup, Prog.lookup, hexec]
        simp [DeletionContext.hashes, hhash, hhashes]

/-! ### The pipeline -/

theorem exec_execute_ok {step : Step} {steps : List Step} {ctx' : DeletionContext} {s' : Services}
    (h : Prog.exec (serve notified) (step ctx) s = (.ok ctx', s')) :
    Prog.exec (serve notified) (execute (step :: steps) ctx) s =
      Prog.exec (serve notified) (execute steps ctx') s' := by
  have hstep : Prog.exec (serve notified) (tryCatch (some <$> step ctx) fun _ => pure none) s =
      (.ok (some ctx'), s') := Prog.exec_tryCatch_ok (Prog.exec_map_ok h)
  rw [execute, Prog.exec_bind_ok hstep]

theorem exec_execute_error {step : Step} {steps : List Step} {e : Fault} {s' : Services}
    (h : Prog.exec (serve notified) (step ctx) s = (.error e, s')) :
    Prog.exec (serve notified) (execute (step :: steps) ctx) s = (.ok false, s') := by
  have hstep : Prog.exec (serve notified) (tryCatch (some <$> step ctx) fun _ => pure none) s =
      (.ok none, s') := by
    rw [Prog.exec_tryCatch_error (Prog.exec_map_error h)]
    rfl
  rw [execute, Prog.exec_bind_ok hstep]
  rfl

end Steps

/-- The action for the torrents, with its default. -/
def effectiveAction (qbitAction : String) : String :=
  if qbitAction = "" then "tag_only" else qbitAction

/-- The tag for the torrents, with its default. -/
def effectiveTag (qbitTag : String) : String := if qbitTag = "" then "Supprimé-Hygie" else qbitTag

theorem effectiveTag_ne_empty (qbitTag : String) : effectiveTag qbitTag ≠ "" := by
  rw [effectiveTag]
  split_ifs with hempty
  · decide
  · exact hempty

/-- The context that `_delete_media` starts with. -/
def deletionContext (item : Item) (qbitAction qbitTag : String) : DeletionContext where
  item := item
  qbitAction := effectiveAction qbitAction
  qbitTag := effectiveTag qbitTag

theorem deleteMedia_eq (cfg : Config) (item : Item) (qbitAction qbitTag : String) :
    deleteMedia cfg item false qbitAction qbitTag =
      execute (defaultPipeline cfg) (deletionContext item qbitAction qbitTag) := rfl

section Pipeline

variable {notified : ℤ → Bool} {cfg : Config} {item : Item} {qbitAction qbitTag : String}
  {s : Services}

/-- **The first four steps** only look something up. -/
theorem exec_lookups (notified : ℤ → Bool) (cfg : Config) (item : Item)
    (qbitAction qbitTag : String)
    (s : Services) (steps : List Step) :
    ∃ ctx, Prog.exec (serve notified) (execute
        ([sizeLookupStep cfg, torrentHashStep cfg, discordNotifyStep, serverResolveStep cfg] ++
          steps)
        (deletionContext item qbitAction qbitTag)) s =
          Prog.exec (serve notified) (execute steps ctx) s ∧
      HandsOver cfg notified s (deletionContext item qbitAction qbitTag) ctx ∧
      ctx.server = cfg.mediaServers.find? (·.id == ctx.serverId) := by
  have hdry : (deletionContext item qbitAction qbitTag).dryRun = false := rfl
  obtain ⟨sized, hsized, hhandover⟩ := exec_sizeLookupStep notified cfg s hdry
  obtain ⟨hashed, hhashed, hhands⟩ := exec_torrentHashStep notified cfg s hhandover.dryRun
    hhandover.torrentHash hhandover.torrentHashes
  refine ⟨{ hashed with server := cfg.mediaServers.find? (·.id == hashed.serverId) }, ?_, ?_, rfl⟩
  · rw [List.cons_append, exec_execute_ok hsized, List.cons_append, exec_execute_ok hhashed,
      List.cons_append, exec_execute_ok exec_discordNotifyStep, List.cons_append]
    exact exec_execute_ok rfl
  · refine ⟨hhands.item.trans hhandover.item, hhands.dryRun.trans hhandover.dryRun,
      hhands.qbitAction.trans hhandover.qbitAction, hhands.qbitTag.trans hhandover.qbitTag, ?_⟩
    have hhashes := hhands.hashes
    rw [hhandover.item] at hhashes
    exact hhashes

/-- The services after the removal from the media server. -/
def afterMedia (cfg : Config) (item : Item) (s : Services) : Services :=
  (carryOut (mediaTarget cfg item s) s).2

/-- The services after the removal from Radarr or Sonarr. -/
def afterArr (cfg : Config) (item : Item) (s : Services) : Services :=
  (carryOut (arrTarget cfg item.toQueueEntry s.arr) s).2

/-- The services after the steps that never fail, for the hashes that were found. -/
def afterRest (cfg : Config) (item : Item) (qbitAction qbitTag : String) (hashes : List String)
    (s : Services) : Services :=
  hashes.foldl (Services.handleTorrent cfg (effectiveAction qbitAction) (effectiveTag qbitTag))
    (s.withoutRequest cfg item.toQueueEntry)

/-- **A deletion while all services are up** fails at one of two steps, or goes through. -/
theorem exec_deleteMedia :
    Prog.exec (serve notified) (deleteMedia cfg item false qbitAction qbitTag) s =
      if Ready (mediaTarget cfg item s) s then
        if Ready (arrTarget cfg item.toQueueEntry (afterMedia cfg item s).arr)
            (afterMedia cfg item s) then
          (.ok true,
            afterRest cfg item qbitAction qbitTag (rowHashes cfg notified item.toQueueEntry s)
              (afterArr cfg item (afterMedia cfg item s)))
        else (.ok false, afterMedia cfg item s)
      else (.ok false, s) := by
  obtain ⟨ctx, hexec, hhands, hserver⟩ := exec_lookups notified cfg item qbitAction qbitTag s
    [mediaServerStep cfg, arrStep cfg, seerrStep cfg, qbitStep cfg, statsStep]
  have hitem : ctx.item = item := hhands.item
  have hmedia : Prog.exec (serve notified) (mediaServerStep cfg ctx) s =
      if Ready (mediaTarget cfg item s) s then (.ok ctx, afterMedia cfg item s)
      else (.error .fatal, s) := by
    rw [afterMedia, ← hitem]
    exact exec_mediaServerStep hhands.dryRun hserver
  have harr : Prog.exec (serve notified) (arrStep cfg ctx) (afterMedia cfg item s) = _ :=
    exec_arrStep hhands.dryRun
  rw [hitem] at harr
  rw [deleteMedia_eq]
  refine hexec.trans ?_
  split_ifs with hready hready'
  · rw [if_pos hready] at hmedia
    rw [if_pos hready'] at harr
    have htag : ctx.qbitTag ≠ "" := by
      rw [hhands.qbitTag]
      exact effectiveTag_ne_empty qbitTag
    rw [exec_execute_ok hmedia, exec_execute_ok harr,
      exec_execute_ok (exec_seerrStep hhands.dryRun),
      exec_execute_ok (exec_qbitStep hhands.dryRun htag), exec_execute_ok exec_statsStep, hitem,
      hhands.hashes, hhands.qbitAction, hhands.qbitTag]
    rfl
  · rw [if_pos hready] at hmedia
    rw [if_neg hready'] at harr
    rw [exec_execute_ok hmedia]
    exact exec_execute_error harr
  · rw [if_neg hready] at hmedia
    exact exec_execute_error hmedia

end Pipeline

/-! ### What stays removed -/

/-- A torrent has been dealt with: it is deleted, or it bears the tag. -/
def TorrentDone (cfg : Config) (action tag : String) (s : Services) (hash : String) : Prop :=
  qbitAddress cfg ≠ "" → hash ≠ "" → ∀ t ∈ s.torrents (qbitAddress cfg), t.hash = hash →
    ¬ DeletesTorrents action ∧ tag ∈ t.tags

/-- Nothing comes back, and what has been dealt with stays so. -/
structure Shrinks (cfg : Config) (action tag : String) (s s' : Services) : Prop where
  items : ∀ url, s'.items url ⊆ s.items url
  plexItems : ∀ url, s'.plexItems url ⊆ s.plexItems url
  movies : ∀ url, (s'.arr url).movies ⊆ (s.arr url).movies
  episodeFiles : ∀ url, (s'.arr url).episodeFiles ⊆ (s.arr url).episodeFiles
  requests : ∀ url, s'.requests url ⊆ s.requests url
  torrents : ∀ hash, TorrentDone cfg action tag s hash → TorrentDone cfg action tag s' hash

section Shrinking

variable {cfg : Config} {action tag : String} {s s' s'' : Services} {r : Removal}

theorem Shrinks.refl (s : Services) : Shrinks cfg action tag s s :=
  ⟨fun _ => List.Subset.refl _, fun _ => List.Subset.refl _, fun _ => List.Subset.refl _,
    fun _ => List.Subset.refl _, fun _ => List.Subset.refl _, fun _ => id⟩

theorem Shrinks.trans (h : Shrinks cfg action tag s s') (h' : Shrinks cfg action tag s' s'') :
    Shrinks cfg action tag s s'' where
  items url := List.Subset.trans (h'.items url) (h.items url)
  plexItems url := List.Subset.trans (h'.plexItems url) (h.plexItems url)
  movies url := List.Subset.trans (h'.movies url) (h.movies url)
  episodeFiles url := List.Subset.trans (h'.episodeFiles url) (h.episodeFiles url)
  requests url := List.Subset.trans (h'.requests url) (h.requests url)
  torrents hash hdone := h'.torrents hash (h.torrents hash hdone)

/-- What is gone stays gone. -/
theorem Shrinks.gone (h : Shrinks cfg action tag s s') (hgone : r.Gone s) : r.Gone s' := by
  cases r with
  | nothing => trivial
  | item url id => exact fun it hit => hgone it (h.items url hit)
  | plexItem url ratingKey => exact fun hmem => hgone (h.plexItems url hmem)
  | movie url id => exact fun m hm => hgone m (h.movies url hm)
  | file url id => exact fun ef hef => hgone ef (h.episodeFiles url hef)
  | files url ids => exact fun ef hef => hgone ef (h.episodeFiles url hef)

/-- A list that is filtered at one address. -/
theorem update_filter_subset {α : Type} (f : String → List α) (url : String) (p : α → Bool)
    (url' : String) : Function.update f url ((f url).filter p) url' ⊆ f url' := by
  by_cases h : url' = url
  · subst h
    rw [Function.update_self]
    exact List.filter_subset_self _
  · rw [Function.update_of_ne h]
    exact List.Subset.refl _

theorem shrinks_removeItem (url id : String) : Shrinks cfg action tag s (s.removeItem url id) :=
  { Shrinks.refl s with items := update_filter_subset s.items url _ }

theorem shrinks_removePlexItem (url ratingKey : String) :
    Shrinks cfg action tag s (s.removePlexItem url ratingKey) :=
  { Shrinks.refl s with plexItems := update_filter_subset s.plexItems url _ }

theorem shrinks_arr {url : String} {lib : ArrLibrary} (hmovies : lib.movies ⊆ (s.arr url).movies)
    (hfiles : lib.episodeFiles ⊆ (s.arr url).episodeFiles) :
    Shrinks cfg action tag s { s with arr := Function.update s.arr url lib } := by
  refine { Shrinks.refl s with movies := fun url' => ?_, episodeFiles := fun url' => ?_ }
  · by_cases h : url' = url
    · subst h
      simpa using hmovies
    · simp [Function.update_of_ne h]
  · by_cases h : url' = url
    · subst h
      simpa using hfiles
    · simp [Function.update_of_ne h]

theorem shrinks_apply (r : Removal) : Shrinks cfg action tag s (r.apply s) := by
  cases r with
  | nothing => exact Shrinks.refl s
  | item url id => exact shrinks_removeItem url id
  | plexItem url ratingKey => exact shrinks_removePlexItem url ratingKey
  | movie url id => exact shrinks_arr (List.filter_subset_self _) (List.Subset.refl _)
  | file url id => exact shrinks_arr (List.Subset.refl _) (List.filter_subset_self _)
  | files url ids => exact shrinks_arr (List.Subset.refl _) (List.filter_subset_self _)

theorem shrinks_carryOut (target : Option Removal) :
    Shrinks cfg action tag s (carryOut target s).2 := by
  rcases target with _ | r
  · exact Shrinks.refl s
  · by_cases hheld : r.Held s
    · rw [carryOut_of_held hheld]
      exact shrinks_apply r
    · rw [carryOut_of_not_held hheld]
      exact Shrinks.refl s

theorem shrinks_withoutRequest (row : QueueEntry) :
    Shrinks cfg action tag s (s.withoutRequest cfg row) := by
  rw [Services.withoutRequest]
  cases truthyId row.seerrId with
  | none => exact Shrinks.refl s
  | some id =>
      show Shrinks cfg action tag s (if _ then _ else s)
      split_ifs
      · exact { Shrinks.refl s with requests := update_filter_subset s.requests _ _ }
      · exact Shrinks.refl s

/-- **One torrent** is dealt with, and the others are left alone. -/
theorem torrentDone_handleTorrent {hash hash' : String} :
    TorrentDone cfg action tag (s.handleTorrent cfg action tag hash) hash' ↔
      hash' = hash ∨ TorrentDone cfg action tag s hash' := by
  by_cases hempty : hash = ""
  · rw [Services.handleTorrent, if_pos hempty]
    refine ⟨.inr, fun h => ?_⟩
    rcases h with rfl | h
    · exact fun _ hne => absurd hempty hne
    · exact h
  · by_cases haddress : qbitAddress cfg = ""
    · exact iff_of_true (fun hne => absurd haddress hne) (.inr fun hne => absurd haddress hne)
    · rw [Services.handleTorrent, if_neg hempty, Services.post, if_neg haddress]
      simp only [TorrentDone, Services.applyOp, Function.update_self, qbitOp]
      by_cases haction : DeletesTorrents action
      · simp only [haction, if_true, QbitOp.apply, List.mem_filter, not_true_eq_false, false_and,
          decide_eq_true_eq, and_imp]
        constructor
        · intro h
          refine or_iff_not_imp_left.2 fun hne _ hne' t ht hash_eq => ?_
          exact h haddress hne' t ht (by rw [hash_eq]; exact hne) hash_eq
        · intro h ha hne t ht hother hash_eq
          rcases h with rfl | h
          · exact hother hash_eq
          · exact h ha hne t ht hash_eq
      · simp only [haction, if_false, QbitOp.apply, List.mem_map, forall_exists_index, and_imp,
          not_false_eq_true, true_and, forall_apply_eq_imp_iff₂]
        constructor
        · intro h
          refine or_iff_not_imp_left.2 fun hne _ hne' t ht hash_eq => ?_
          have htags := h haddress hne' t ht
          rw [if_neg (by rw [hash_eq]; exact hne)] at htags
          exact htags hash_eq
        · intro h ha hne t ht hash_eq
          split_ifs at hash_eq ⊢ with hsame
          · exact List.mem_cons_self
          · rcases h with rfl | h
            · exact absurd hash_eq hsame
            · exact h ha hne t ht hash_eq

theorem shrinks_handleTorrent (hash : String) :
    Shrinks cfg action tag s (s.handleTorrent cfg action tag hash) := by
  have htorrents : ∀ hash', TorrentDone cfg action tag s hash' →
      TorrentDone cfg action tag (s.handleTorrent cfg action tag hash) hash' :=
    fun hash' hdone => torrentDone_handleTorrent.2 (.inr hdone)
  have hothers : ∃ torrents,
      s.handleTorrent cfg action tag hash = { s with torrents := torrents } := by
    simp only [Services.handleTorrent, Services.post, Services.applyOp]
    split_ifs
    · exact ⟨s.torrents, rfl⟩
    · exact ⟨s.torrents, rfl⟩
    · exact ⟨_, rfl⟩
  obtain ⟨torrents, hothers⟩ := hothers
  rw [hothers] at htorrents ⊢
  exact ⟨fun _ => List.Subset.refl _, fun _ => List.Subset.refl _, fun _ => List.Subset.refl _,
    fun _ => List.Subset.refl _, fun _ => List.Subset.refl _, htorrents⟩

/-- **All hashes** that are handed over are dealt with, and no others. -/
theorem torrentDone_foldl {hashes : List String} {hash : String} :
    TorrentDone cfg action tag (hashes.foldl (Services.handleTorrent cfg action tag) s) hash ↔
      hash ∈ hashes ∨ TorrentDone cfg action tag s hash := by
  induction hashes generalizing s with
  | nil => simp
  | cons h hashes ih =>
      rw [List.foldl_cons, ih, torrentDone_handleTorrent, List.mem_cons]
      tauto

theorem shrinks_foldl {hashes : List String} :
    Shrinks cfg action tag s (hashes.foldl (Services.handleTorrent cfg action tag) s) := by
  induction hashes generalizing s with
  | nil => exact Shrinks.refl s
  | cons h hashes ih => exact (shrinks_handleTorrent h).trans ih

end Shrinking

/-! ### An attempt that is cut off -/

section Attempts

variable {notified : ℤ → Bool} {cfg : Config} {item : Item} {qbitAction qbitTag : String}
  {s : Services} {k : ℕ}

/-- The services when an attempt ends after so many steps, or at a step before that raises. -/
def attempt (cfg : Config) (notified : ℤ → Bool) (item : Item) (qbitAction qbitTag : String) (k : ℕ)
    (s : Services) : Services :=
  (Prog.exec (serve notified) (execute ((defaultPipeline cfg).take k)
    (deletionContext item qbitAction qbitTag)) s).2

/-- Lookups in a row touch nothing. -/
theorem always_execute {holds : ∀ q : Query, q.Body → Prop} {P : Query → Prop} {steps : List Step}
    (h : ∀ step ∈ steps, Preparatory holds P step) (ctx : DeletionContext) :
    Prog.Always (Permits holds) P (execute steps ctx) := by
  induction steps generalizing ctx with
  | nil => exact Prog.Always.pure true
  | cons step steps ih =>
      have hstep := h step (List.mem_cons_self ..) ctx
      have hrest := ih fun step' hmem => h step' (List.mem_cons_of_mem _ hmem)
      refine Prog.always_iff_wp.2 ((wp_execute_cons step steps ctx).2 ?_)
      exact Prog.wp_mono (fun ctx' _ => Prog.always_iff_wp.1 (hrest ctx'))
        (fun _ _ => trivial) hstep

/-- **Before the media server** nothing has changed. -/
theorem attempt_of_le (hk : k ≤ 4) : attempt cfg notified item qbitAction qbitTag k s = s := by
  have htake : (defaultPipeline cfg).take k =
      [sizeLookupStep cfg, torrentHashStep cfg, discordNotifyStep,
        serverResolveStep cfg].take k := by
    rw [show defaultPipeline cfg = [sizeLookupStep cfg, torrentHashStep cfg, discordNotifyStep,
      serverResolveStep cfg] ++ [mediaServerStep cfg, arrStep cfg, seerrStep cfg, qbitStep cfg,
        statsStep] from rfl, List.take_append_of_le_length (by simpa using hk)]
  have hP : ∀ q : Query, q.touches = false → q.touches = false := fun _ hq => hq
  rw [attempt, htake]
  refine exec_of_always (always_execute (fun step hstep => ?_) _)
  have hmem := List.mem_of_mem_take hstep
  simp only [List.mem_cons, List.not_mem_nil, or_false] at hmem
  rcases hmem with rfl | rfl | rfl | rfl
  · exact preparatory_sizeLookupStep hP
  · exact preparatory_torrentHashStep hP
  · exact preparatory_discordNotifyStep hP
  · intro ctx
    exact (Prog.wp_pure _).2 ⟨rfl, rfl⟩

/-- A step that takes something away and goes on with the same context, or raises. -/
def Takes (cfg : Config) (notified : ℤ → Bool) (action tag : String) (ctx : DeletionContext)
    (step : Step) : Prop :=
  ∀ s, (∃ s', Prog.exec (serve notified) (step ctx) s = (.ok ctx, s') ∧
    Shrinks cfg action tag s s') ∨
    ∃ e, Prog.exec (serve notified) (step ctx) s = (.error e, s)

theorem shrinks_execute {action tag : String} {ctx : DeletionContext} {steps : List Step}
    (h : ∀ step ∈ steps, Takes cfg notified action tag ctx step) :
    Shrinks cfg action tag s (Prog.exec (serve notified) (execute steps ctx) s).2 := by
  induction steps generalizing s with
  | nil => exact Shrinks.refl s
  | cons step steps ih =>
      rcases h step (List.mem_cons_self ..) s with ⟨s', hexec, hshrinks⟩ | ⟨e, hexec⟩
      · rw [exec_execute_ok hexec]
        exact hshrinks.trans (ih fun step' hmem => h step' (List.mem_cons_of_mem _ hmem))
      · rw [exec_execute_error hexec]
        exact Shrinks.refl s

theorem takes_arrStep {action tag : String} {ctx : DeletionContext} (hdry : ctx.dryRun = false) :
    Takes cfg notified action tag ctx (arrStep cfg) := by
  intro s
  rw [exec_arrStep hdry]
  split_ifs with hready
  · exact .inl ⟨_, rfl, shrinks_carryOut _⟩
  · exact .inr ⟨_, rfl⟩

/-- The steps after the one of Radarr and Sonarr. -/
theorem takes_of_mem {ctx : DeletionContext} (notified : ℤ → Bool) (cfg : Config)
    (hdry : ctx.dryRun = false) (htag : ctx.qbitTag ≠ "") :
    ∀ step ∈ [seerrStep cfg, qbitStep cfg, statsStep],
      Takes cfg notified ctx.qbitAction ctx.qbitTag ctx step := by
  intro step hstep s
  simp only [List.mem_cons, List.not_mem_nil, or_false] at hstep
  rcases hstep with rfl | rfl | rfl
  · exact .inl ⟨_, exec_seerrStep hdry, shrinks_withoutRequest _⟩
  · exact .inl ⟨_, exec_qbitStep hdry htag, shrinks_foldl⟩
  · exact .inl ⟨_, exec_statsStep, Shrinks.refl s⟩

/-- **From the media server on**: what the removal there has left, for the steps that came after it.
-/
theorem attempt_add (notified : ℤ → Bool) (cfg : Config) (item : Item) (qbitAction qbitTag : String)
    (s : Services) (j : ℕ) :
    ∃ ctx, HandsOver cfg notified s (deletionContext item qbitAction qbitTag) ctx ∧
      attempt cfg notified item qbitAction qbitTag (5 + j) s =
        if Ready (mediaTarget cfg item s) s then
          (Prog.exec (serve notified)
            (execute ([arrStep cfg, seerrStep cfg, qbitStep cfg, statsStep].take j) ctx)
            (afterMedia cfg item s)).2
        else s := by
  obtain ⟨ctx, hexec, hhands, hserver⟩ := exec_lookups notified cfg item qbitAction qbitTag s
    (mediaServerStep cfg :: [arrStep cfg, seerrStep cfg, qbitStep cfg, statsStep].take j)
  have hitem : ctx.item = item := hhands.item
  have hmedia : Prog.exec (serve notified) (mediaServerStep cfg ctx) s = _ :=
    exec_mediaServerStep hhands.dryRun hserver
  rw [hitem] at hmedia
  have htake : (defaultPipeline cfg).take (5 + j) =
      [sizeLookupStep cfg, torrentHashStep cfg, discordNotifyStep, serverResolveStep cfg] ++
        mediaServerStep cfg :: [arrStep cfg, seerrStep cfg, qbitStep cfg, statsStep].take j := by
    rw [Nat.add_comm]
    rfl
  refine ⟨ctx, hhands, ?_⟩
  rw [attempt, htake, hexec]
  split_ifs with hready
  · rw [if_pos hready] at hmedia
    rw [exec_execute_ok hmedia]
    rfl
  · rw [if_neg hready] at hmedia
    rw [exec_execute_error hmedia]

/-- From the fifth step on the library item is gone. -/
theorem shrinks_attempt (hk : 4 < k) :
    Shrinks cfg (effectiveAction qbitAction) (effectiveTag qbitTag) (afterMedia cfg item s)
      (attempt cfg notified item qbitAction qbitTag k s) := by
  obtain ⟨j, rfl⟩ : ∃ j, k = 5 + j := ⟨k - 5, by omega⟩
  obtain ⟨ctx, hhands, hattempt⟩ := attempt_add notified cfg item qbitAction qbitTag s j
  rw [hattempt]
  split_ifs with hready
  · refine shrinks_execute fun step hstep => ?_
    have haction : ctx.qbitAction = effectiveAction qbitAction := hhands.qbitAction
    have htag : ctx.qbitTag = effectiveTag qbitTag := hhands.qbitTag
    rcases List.mem_cons.1 (List.mem_of_mem_take hstep) with rfl | hrest
    · exact takes_arrStep hhands.dryRun
    · rw [← haction, ← htag]
      refine takes_of_mem notified cfg hhands.dryRun ?_ step hrest
      rw [htag]
      exact effectiveTag_ne_empty qbitTag
  · rw [afterMedia, carryOut_of_not_ready hready]
    exact Shrinks.refl s

/-- The removal from the media server leaves Radarr and Sonarr alone. -/
theorem afterMedia_arr : (afterMedia cfg item s).arr = s.arr := by
  rw [afterMedia]
  cases htarget : mediaTarget cfg item s with
  | none => rfl
  | some r =>
      by_cases hheld : r.Held s
      · rw [carryOut_of_held hheld]
        exact (onMediaServer_mediaTarget htarget).apply_arr
      · rw [carryOut_of_not_held hheld]

theorem ready_afterMedia_iff :
    Ready (arrTarget cfg item.toQueueEntry (afterMedia cfg item s).arr) (afterMedia cfg item s) ↔
      Ready (arrTarget cfg item.toQueueEntry s.arr) s := by
  rw [afterMedia_arr]
  exact exists_congr fun r => and_congr_right fun hr =>
    (inArr_arrTarget hr).held_congr afterMedia_arr

/-- What is to be removed from Radarr or Sonarr is gone after the removal. -/
theorem gone_afterArr {r : Removal} (hr : arrTarget cfg item.toQueueEntry s.arr = some r) :
    r.Gone (afterArr cfg item (afterMedia cfg item s)) := by
  rw [afterArr, afterMedia_arr, hr]
  exact gone_carryOut

/-- **Radarr and Sonarr** are as before the attempt, or the removal there has been made. -/
theorem attempt_arr (notified : ℤ → Bool) (cfg : Config) (item : Item) (qbitAction qbitTag : String)
    (k : ℕ) (s : Services) :
    (attempt cfg notified item qbitAction qbitTag k s).arr = s.arr ∨
      ∀ r, arrTarget cfg item.toQueueEntry s.arr = some r →
        r.Gone (attempt cfg notified item qbitAction qbitTag k s) := by
  by_cases hk : k ≤ 4
  · exact .inl (by rw [attempt_of_le hk])
  · obtain ⟨j, rfl⟩ : ∃ j, k = 5 + j := ⟨k - 5, by omega⟩
    obtain ⟨ctx, hhands, hattempt⟩ := attempt_add notified cfg item qbitAction qbitTag s j
    rw [hattempt]
    by_cases hready : Ready (mediaTarget cfg item s) s
    · rw [if_pos hready]
      cases j with
      | zero => exact .inl afterMedia_arr
      | succ j =>
          refine .inr fun r hr => ?_
          have hitem : ctx.item = item := hhands.item
          have htag : ctx.qbitTag ≠ "" := by
            rw [hhands.qbitTag]
            exact effectiveTag_ne_empty qbitTag
          have harr : Prog.exec (serve notified) (arrStep cfg ctx) (afterMedia cfg item s) = _ :=
            exec_arrStep hhands.dryRun
          rw [hitem] at harr
          have hgone := gone_afterArr hr
          rw [List.take_succ_cons]
          by_cases hready' : Ready (arrTarget cfg item.toQueueEntry (afterMedia cfg item s).arr)
              (afterMedia cfg item s)
          · rw [if_pos hready'] at harr
            rw [exec_execute_ok harr]
            have hrest := shrinks_execute (s := afterArr cfg item (afterMedia cfg item s))
              fun step hstep => takes_of_mem notified cfg hhands.dryRun htag step
                (List.mem_of_mem_take (i := j) hstep)
            exact hrest.gone hgone
          · rw [if_neg hready'] at harr
            rw [exec_execute_error harr]
            rw [afterArr, carryOut_of_not_ready hready'] at hgone
            exact hgone
    · rw [if_neg hready]
      exact .inl rfl

end Attempts

/-! ### Resuming -/

section Resuming

variable {notified notified' : ℤ → Bool} {cfg : Config} {item : Item} {qbitAction qbitTag : String}
  {s s₀ : Services} {k : ℕ}

/-- **The deletion is complete**: the pipeline returns `True`, and all that the row stood for in the
services at the start is gone or dealt with. -/
structure Completed (cfg : Config) (notified : ℤ → Bool) (item : Item) (qbitAction qbitTag : String)
    (s₀ : Services) (result : Except Fault Bool × Services) : Prop where
  returns : result.1 = .ok true
  media : ∀ r, mediaTarget cfg item s₀ = some r → r.Gone result.2
  arr : ∀ r, arrTarget cfg item.toQueueEntry s₀.arr = some r → r.Gone result.2
  request : ∀ id, truthyId item.seerrId = some id → (seerrConfig cfg).1 ≠ "" →
    (seerrConfig cfg).2 ≠ "" → id ∉ result.2.requests (seerrConfig cfg).1
  torrents : ∀ hash ∈ rowHashes cfg notified item.toQueueEntry s₀,
    TorrentDone cfg (effectiveAction qbitAction) (effectiveTag qbitTag) result.2 hash

/-- An attempt ends after so many steps, and the row is tried again while all services are up. -/
def Resumes (cfg : Config) (notified notified' : ℤ → Bool) (item : Item)
    (qbitAction qbitTag : String)
    (k : ℕ) (s₀ : Services) : Prop :=
  Completed cfg notified item qbitAction qbitTag s₀
    (Prog.exec (serve notified') (deleteMedia cfg item false qbitAction qbitTag)
      (attempt cfg notified item qbitAction qbitTag k s₀))

/-- **What the earlier attempt must have left**: the media server and Radarr or Sonarr still hold
what the row stands for there, or there is nothing to remove, and the torrents that were not dealt
with can still be found. -/
structure Resumable (cfg : Config) (notified notified' : ℤ → Bool) (item : Item)
    (qbitAction qbitTag : String) (s₀ s : Services) : Prop where
  media : Ready (mediaTarget cfg item s) s
  arr : Ready (arrTarget cfg item.toQueueEntry s.arr) s
  torrents : ∀ hash ∈ rowHashes cfg notified item.toQueueEntry s₀,
    hash ∈ rowHashes cfg notified' item.toQueueEntry s ∨
      TorrentDone cfg (effectiveAction qbitAction) (effectiveTag qbitTag) s hash

/-- After a removal everything that the row stood for on the media server is gone. -/
theorem gone_afterMedia {r : Removal} (hr : mediaTarget cfg item s = some r) :
    r.Gone (afterMedia cfg item s) := by
  rw [afterMedia, hr]
  exact gone_carryOut

theorem Removal.Gone.carryOut {r : Removal} (h : r.Gone s) (target : Option Removal) :
    r.Gone (carryOut target s).2 :=
  (shrinks_carryOut target : Shrinks {} "" "" s _).gone h

theorem Removal.Gone.afterRest {r : Removal} (h : r.Gone s) (hashes : List String) :
    r.Gone (afterRest cfg item qbitAction qbitTag hashes s) := by
  have hrest : Shrinks cfg (effectiveAction qbitAction) (effectiveTag qbitTag) s
      (Hygie.afterRest cfg item qbitAction qbitTag hashes s) :=
    (shrinks_withoutRequest item.toQueueEntry).trans shrinks_foldl
  exact hrest.gone h

theorem not_mem_afterRest {hashes : List String} {id : ℤ} (hid : truthyId item.seerrId = some id)
    (hurl : (seerrConfig cfg).1 ≠ "") (hkey : (seerrConfig cfg).2 ≠ "") :
    id ∉ (afterRest cfg item qbitAction qbitTag hashes s).requests (seerrConfig cfg).1 := by
  intro hmem
  have hrest : Shrinks cfg (effectiveAction qbitAction) (effectiveTag qbitTag)
      (s.withoutRequest cfg item.toQueueEntry) (afterRest cfg item qbitAction qbitTag hashes s) :=
    shrinks_foldl
  have hleft := hrest.requests _ hmem
  have hne : id ≠ 0 := (truthyId_eq_some.1 hid).2
  simp [Services.withoutRequest, hid, Services.deleteRequest, hurl, hkey, hne,
    Services.removeRequest] at hleft

theorem carryOut_torrents (target : Option Removal) :
    (carryOut target s).2.torrents = s.torrents := by
  cases target with
  | none => rfl
  | some r =>
      by_cases hheld : r.Held s
      · rw [carryOut_of_held hheld]
        cases r <;> rfl
      · rw [carryOut_of_not_held hheld]

theorem withoutRequest_torrents (row : QueueEntry) :
    (s.withoutRequest cfg row).torrents = s.torrents := by
  rw [Services.withoutRequest]
  cases truthyId row.seerrId with
  | none => rfl
  | some id =>
      show (if _ then _ else s : Services).torrents = s.torrents
      split_ifs
      · rfl
      · rfl

/-- Only the torrent step deals with torrents. -/
theorem torrentDone_afterRest {hashes : List String} {hash : String} :
    TorrentDone cfg (effectiveAction qbitAction) (effectiveTag qbitTag)
        (afterRest cfg item qbitAction qbitTag hashes (afterArr cfg item (afterMedia cfg item s)))
          hash ↔
      hash ∈ hashes ∨
        TorrentDone cfg (effectiveAction qbitAction) (effectiveTag qbitTag) s hash := by
  rw [afterRest, torrentDone_foldl]
  simp only [TorrentDone, withoutRequest_torrents, afterArr, afterMedia, carryOut_torrents]

/-- **The second attempt** returns `True` if and only if nothing it has to remove is answered with
404. -/
theorem exec_deleteMedia_of_ready (hmedia : Ready (mediaTarget cfg item s) s)
    (harr : Ready (arrTarget cfg item.toQueueEntry s.arr) s) :
    Prog.exec (serve notified) (deleteMedia cfg item false qbitAction qbitTag) s =
      (.ok true, afterRest cfg item qbitAction qbitTag (rowHashes cfg notified item.toQueueEntry s)
        (afterArr cfg item (afterMedia cfg item s))) := by
  rw [exec_deleteMedia, if_pos hmedia, if_pos (ready_afterMedia_iff.2 harr)]

theorem ready_of_returns
    (h : (Prog.exec (serve notified) (deleteMedia cfg item false qbitAction qbitTag) s).1 =
      .ok true) :
    Ready (mediaTarget cfg item s) s ∧ Ready (arrTarget cfg item.toQueueEntry s.arr) s := by
  rw [exec_deleteMedia] at h
  split_ifs at h with hmedia harr
  · exact ⟨hmedia, ready_afterMedia_iff.1 harr⟩
  · cases h
  · cases h

/-- The media server never stops the deletion of a season or of a series. -/
theorem ready_mediaTarget_of_group (hgroup : startsWith item.embyId "sonarr-" = true) :
    Ready (mediaTarget cfg item s) s := by
  by_cases hid : item.embyId = ""
  · exact ⟨.nothing, if_pos hid, trivial⟩
  · have hctx : (deletionContext item "" "").item.embyId ≠ "" := hid
    exact (exec_deleteConsolidated (fun _ => false) cfg s hctx hgroup).1

theorem ne_nothing_of_directTarget {r : Removal} (h : directTarget cfg item = some r) :
    r ≠ .nothing := by
  simp only [directTarget] at h
  split_ifs at h
  · obtain ⟨plex, -, rfl⟩ := Option.map_eq_some_iff.1 h
    nofun
  · obtain rfl := Option.some.inj h
    nofun

/-- What is gone from a media server is answered with 404. -/
theorem not_held_of_gone {r : Removal} (hr : r.OnMediaServer) (hne : r ≠ .nothing)
    (hgone : r.Gone s) :
    ¬ r.Held s := by
  cases r with
  | nothing => exact absurd rfl hne
  | item url id =>
      intro hheld
      obtain ⟨it, hit, hid⟩ := hheld
      exact hgone it hit hid
  | plexItem url ratingKey => exact hgone
  | movie | file | files => exact hr.elim

/-- **A single title** that an earlier attempt has removed from the media server is never finished.
-/
theorem not_resumable_of_direct (hid : item.embyId ≠ "")
    (hown : startsWith item.embyId "sonarr-" = false) (hk : 4 < k) :
    ¬ Resumable cfg notified notified' item qbitAction qbitTag s₀
      (attempt cfg notified item qbitAction qbitTag k s₀) := by
  intro h
  have htarget : ∀ s, mediaTarget cfg item s = directTarget cfg item := by
    intro s
    rw [mediaTarget, if_neg hid, if_neg (by simp [hown])]
  obtain ⟨r, hr, hheld⟩ := h.media
  have hleft : Shrinks cfg (effectiveAction qbitAction) (effectiveTag qbitTag)
      (afterMedia cfg item s₀) (attempt cfg notified item qbitAction qbitTag k s₀) :=
    shrinks_attempt hk
  have hgone : r.Gone (attempt cfg notified item qbitAction qbitTag k s₀) :=
    hleft.gone (gone_afterMedia (by rw [htarget] at hr ⊢; exact hr))
  refine not_held_of_gone (onMediaServer_mediaTarget hr) ?_ hgone hheld
  rw [htarget] at hr
  exact ne_nothing_of_directTarget hr

/-- **When a deletion can be resumed.** -/
theorem resumes_iff :
    Resumes cfg notified notified' item qbitAction qbitTag k s₀ ↔
      Resumable cfg notified notified' item qbitAction qbitTag s₀
        (attempt cfg notified item qbitAction qbitTag k s₀) := by
  obtain ⟨s, hs⟩ : ∃ s, attempt cfg notified item qbitAction qbitTag k s₀ = s := ⟨_, rfl⟩
  rw [Resumes, hs]
  constructor
  · intro h
    obtain ⟨hmedia, harr⟩ := ready_of_returns h.returns
    have htorrents := h.torrents
    rw [exec_deleteMedia_of_ready hmedia harr] at htorrents
    exact ⟨hmedia, harr, fun hash hmem => torrentDone_afterRest.1 (htorrents hash hmem)⟩
  · intro h
    rw [exec_deleteMedia_of_ready h.media h.arr]
    refine ⟨rfl, fun r hr => ?_, fun r hr => ?_,
      fun id hid hurl hkey => not_mem_afterRest hid hurl hkey,
      fun hash hmem => torrentDone_afterRest.2 (h.torrents hash hmem)⟩
    · -- the library item is removed by one of the two attempts
      by_cases hk : k ≤ 4
      · have hsame : s₀ = s := (attempt_of_le hk).symm.trans hs
        rw [hsame] at hr
        have hgone := gone_afterMedia hr
        exact (hgone.carryOut _).afterRest _
      · have hleft : Shrinks cfg (effectiveAction qbitAction) (effectiveTag qbitTag)
            (afterMedia cfg item s₀) (attempt cfg notified item qbitAction qbitTag k s₀) :=
          shrinks_attempt (by omega)
        rw [hs] at hleft
        have hgone := hleft.gone (gone_afterMedia hr)
        exact ((hgone.carryOut _).carryOut _).afterRest _
    · -- and so are the film or the files
      have hcases := attempt_arr notified cfg item qbitAction qbitTag k s₀
      rw [hs] at hcases
      rcases hcases with hsame | hgone
      · rw [← hsame] at hr
        exact (gone_afterArr hr).afterRest _
      · exact (((hgone r hr).carryOut _).carryOut _).afterRest _

/-- One media server and one Radarr. -/
def filmConfig : Config where
  mediaServers := [{ id := "0", url := "http://emby:8096", apiKey := "k" }]
  radarrUrl := "http://radarr:7878"
  radarrApiKey := "k"

/-- A film that is in the library and in Radarr. -/
def filmRow : Item where
  id := 7
  embyId := "42"
  title := "Alien"
  mediaType := "Movie"
  libraryId := "movies"
  libraryName := "Movies"
  filePath := "/films/Alien/Alien.mkv"
  detectedAt := "2025-01-01T00:00:00"
  deleteAt := "2025-02-01T00:00:00"
  radarrId := some 3
  arrServerUrl := some "http://radarr:7878"

def filmServices : Services where
  arr url :=
    if url = "http://radarr:7878" then { movies := [{ id := 3, path := "/films/Alien" }] } else {}
  items url :=
    if url = "http://emby:8096" then [{ id := "42", path := "/films/Alien/Alien.mkv" }] else []

/-- Radarr fails once after the film was removed from the library: the film would have been deleted
without that failure, and is never deleted after it. -/
theorem not_resumes_film :
    (Prog.exec (serve fun _ => false) (deleteMedia filmConfig filmRow false "" "") filmServices).1 =
        .ok true ∧
      ¬ Resumes filmConfig (fun _ => false) (fun _ => true) filmRow "" "" 5 filmServices := by
  refine ⟨by decide +kernel, fun h => ?_⟩
  have hreturns := h.returns
  revert hreturns
  decide +kernel

end Resuming

end Hygie
