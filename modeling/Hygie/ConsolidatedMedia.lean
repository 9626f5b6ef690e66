/-
**Which library item a consolidated deletion removes.**

A consolidated row stands for a season or a series and carries no identifier of the media server.
The library item is looked for by its folder: a series in the folder that the first Sonarr server
to answer reports for the row's series, a season in the folder of the row's file.  Neither looks at
the server that the row names, nor at what else the folder holds.

Main definitions:

* `MediaItem`, `MediaLibrary` — what a media server holds;
* `ownSeries` — the series of the row, on the Sonarr server of the row;
* `IsRowItem` — the item that the row stands for;
* `DeletesRowItem` — in every run, only such an item is deleted;
* `PathsAgree` — the condition on the servers.

Main results:

* `deletesRowItem_iff` — **the item of the row is deleted, and no other, exactly under the
  condition**.
-/

import Hygie.ArrContent
import Hygie.DeletionPipeline

set_option relaxedAutoImplicit false
set_option autoImplicit false

namespace Hygie

open PyText

/-! ### What a media server holds -/

/-- A series or a season in a media library: the folder of the item and of the series it belongs to,
and the seasons that have files in its folder. -/
structure MediaItem where
  id : String
  type : ItemType
  path : String
  seriesPath : String
  seasonNumber : Option ℤ := none
  seasons : List ℤ := []
  deriving DecidableEq, Repr

/-- The items of a media server; no two of them share an identifier. -/
structure MediaLibrary where
  items : List MediaItem
  nodup : (items.map MediaItem.id).Nodup

/-- The items of one type whose path is the given one, but for slashes at the end. -/
def MediaLibrary.at (lib : MediaLibrary) (type : ItemType) (path : String) : List MediaItem :=
  lib.items.filter fun m => m.type = type ∧ rstripSlash m.path = rstripSlash path

/-- What a media server says of an item. -/
def MediaItem.listed (m : MediaItem) : EmbyItem := ⟨m.id, m.path⟩

/-- What a successful search for a path reports: items of the type, and not always of that path. -/
def MediaHolds (media : String → MediaLibrary) : ∀ q : Query, q.Body → Prop
  | .embyItems url _ _ type, items =>
      ∀ item ∈ items, ∃ m ∈ (media url).items, m.type = type ∧ m.listed = item
  | _, _ => True

/-- What the Sonarr servers and the media servers report. -/
def ServicesHold (w : String → ArrLibrary) (media : String → MediaLibrary) (q : Query)
    (b : q.Body) : Prop :=
  ArrHolds w q b ∧ MediaHolds media q b

/-! ### The item of a row -/

/-- The series of the row on its own Sonarr server. -/
def ownSeries (cfg : Config) (w : String → ArrLibrary) (row : QueueEntry) : Option SonarrSeries :=
  match resolveArrServer cfg (getSonarrServers cfg) row.arrServerUrl with
  | some target => (w target.1).series.find? (·.id = row.sonarrSeriesId.getD 0)
  | none => none

/-- **The item of the row**: the series in the folder of the row's series or, for a season row, that
season of that series, in a folder that holds no other season. -/
def IsRowItem (cfg : Config) (w : String → ArrLibrary) (row : QueueEntry) (m : MediaItem) : Prop :=
  ∃ own, ownSeries cfg w row = some own ∧
    match row.seasonNumber with
    | none => m.type = .series ∧ rstripSlash m.path = rstripSlash own.path
    | some n => m.type = .season ∧ rstripSlash m.seriesPath = rstripSlash own.path ∧
        m.seasonNumber = some n ∧ ∀ k ∈ m.seasons, k = n

/-- **Only the item of the row is deleted**, in every run of the deletion. -/
def DeletesRowItem (cfg : Config) (w : String → ArrLibrary) (media : String → MediaLibrary)
    (ctx : DeletionContext) : Prop :=
  ∀ t o, Prog.Run (Permits (ServicesHold w media)) (deleteConsolidated cfg ctx) t o →
    ∀ q ∈ t, ∀ url key id, q = .embyDelete url key id →
      ∃ m ∈ (media url).items, m.id = id ∧ IsRowItem cfg w ctx.item.toQueueEntry m

/-! ### The condition -/

/-- A configured Sonarr server reports the folder for the identifier of the row's series. -/
def Reports (cfg : Config) (w : String → ArrLibrary) (row : QueueEntry) (path : String) : Prop :=
  path ≠ "" ∧ ∃ srv ∈ getSonarrServers cfg,
    Addressable (sonarrCreds cfg srv.base srv.apiKey) (row.sonarrSeriesId.getD 0) ∧
    ∃ series, (w (sonarrCreds cfg srv.base srv.apiKey).1).series.find?
      (·.id = row.sonarrSeriesId.getD 0) = some series ∧ series.path = path

/-- **The folders agree.**  For a series row, a folder that any Sonarr server reports under the
identifier and that holds a series is the folder of the row's series.  For a season row whose
identifier is known to some Sonarr server, the folder of the row's file holds nothing but that
season of that series. -/
def PathsAgree (cfg : Config) (w : String → ArrLibrary) (lib : MediaLibrary) (row : QueueEntry) :
    Prop :=
  match row.seasonNumber with
  | none => ∀ path, Reports cfg w row path → lib.at .series path ≠ [] →
      (ownSeries cfg w row).map (rstripSlash ·.path) = some (rstripSlash path)
  | some n => (∃ path, Reports cfg w row path) → dirname row.filePath ≠ "" →
      ∀ m ∈ lib.at .season (dirname row.filePath), m.seasonNumber = some n ∧
        (∀ k ∈ m.seasons, k = n) ∧
        (ownSeries cfg w row).map (rstripSlash ·.path) = some (rstripSlash m.seriesPath)

/-! ### The equivalence -/

variable {cfg : Config} {w : String → ArrLibrary} {media : String → MediaLibrary}

theorem MediaLibrary.mem_at {lib : MediaLibrary} {type : ItemType} {path : String}
    {m : MediaItem} :
    m ∈ lib.at type path ↔
      m ∈ lib.items ∧ m.type = type ∧ rstripSlash m.path = rstripSlash path := by
  simp [MediaLibrary.at]

/-- Two items of a library with one identifier are the same item. -/
theorem MediaLibrary.eq_of_id {lib : MediaLibrary} {m m' : MediaItem} (hm : m ∈ lib.items)
    (hm' : m' ∈ lib.items) (h : m.id = m'.id) : m = m' :=
  List.inj_on_of_nodup_map lib.nodup hm hm' h

/-- A search for a path may report any item that lies there, and finds no other. -/
theorem found_iff {lib : MediaLibrary} {type : ItemType} {path : String} {item : EmbyItem} :
    (∃ items : List EmbyItem,
        (∀ item ∈ items, ∃ m ∈ lib.items, m.type = type ∧ m.listed = item) ∧
        items.find? (fun item => rstripSlash item.path == rstripSlash path) = some item) ↔
      ∃ m ∈ lib.at type path, m.listed = item := by
  constructor
  · rintro ⟨items, hitems, hfind⟩
    obtain ⟨m, hm, htype, rfl⟩ := hitems item (List.mem_of_find?_eq_some hfind)
    have hpath : rstripSlash m.path = rstripSlash path := by
      simpa [MediaItem.listed] using List.find?_some hfind
    exact ⟨m, MediaLibrary.mem_at.2 ⟨hm, htype, hpath⟩, rfl⟩
  · rintro ⟨m, hm, rfl⟩
    obtain ⟨hmem, htype, hpath⟩ := MediaLibrary.mem_at.1 hm
    refine ⟨[m.listed], ?_, ?_⟩
    · intro item hitem
      exact ⟨m, hmem, htype, (List.mem_singleton.1 hitem).symm⟩
    · simp [MediaItem.listed, hpath]

/-- **What a consolidated deletion deletes**: any item of the row's type in the folder looked for.
-/
theorem wp_deleteConsolidated_content {P : Query → Prop}
    (hP : ∀ q : Query, q.touches = false → P q) (ctx : DeletionContext) :
    Prog.wp (Permits (ServicesHold w media)) P (deleteConsolidated cfg ctx) (fun _ => True)
        (fun _ => True) ↔
      (Contactable (getClient cfg ctx.serverId) →
        ∀ path, Reports cfg w ctx.item.toQueueEntry path →
        targetPath ctx.item.toQueueEntry path ≠ "" →
        ∀ m ∈ (media (getClient cfg ctx.serverId).1).at (targetType ctx.item.toQueueEntry)
            (targetPath ctx.item.toQueueEntry path),
          P (.embyDelete (getClient cfg ctx.serverId).1 (getClient cfg ctx.serverId).2 m.id)) := by
  rw [wp_deleteConsolidated hP]
  constructor
  · rintro h hclient path ⟨hpath, srv, hsrv, haddr, series, hseries, rfl⟩ htarget m hm
    obtain ⟨items, hitems, hfind⟩ := found_iff.2 ⟨m, hm, rfl⟩
    exact h _ (truthyId_getD haddr.2.2) srv hsrv haddr series ⟨⟨haddr.1, hseries⟩, trivial⟩
      hpath htarget hclient items ⟨trivial, hitems⟩ m.listed hfind
  · rintro h seriesId hid srv hsrv haddr series ⟨⟨-, hseries⟩, -⟩ hpath htarget hclient items
      ⟨-, hitems⟩ item hfind
    obtain ⟨hsome, -⟩ := truthyId_eq_some.1 hid
    obtain ⟨m, hm, rfl⟩ := found_iff.1 ⟨items, hitems, hfind⟩
    refine h hclient series.path ⟨hpath, srv, hsrv, ?_, series, ?_, rfl⟩ htarget m hm
    · rw [hsome, Option.getD_some]
      exact haddr
    · rw [hsome, Option.getD_some]
      exact hseries

/-- An item of the row's library is the item of the row. -/
theorem isRowItem_series {row : QueueEntry} (h : row.seasonNumber = none) {m : MediaItem} :
    IsRowItem cfg w row m ↔ m.type = .series ∧
      (ownSeries cfg w row).map (rstripSlash ·.path) = some (rstripSlash m.path) := by
  simp only [IsRowItem, h, Option.map_eq_some_iff]
  constructor
  · rintro ⟨own, hown, htype, hpath⟩
    exact ⟨htype, own, hown, hpath.symm⟩
  · rintro ⟨htype, own, hown, hpath⟩
    exact ⟨own, hown, htype, hpath.symm⟩

theorem isRowItem_season {row : QueueEntry} {n : ℤ} (h : row.seasonNumber = some n)
    {m : MediaItem} :
    IsRowItem cfg w row m ↔ m.type = .season ∧ m.seasonNumber = some n ∧ (∀ k ∈ m.seasons, k = n) ∧
      (ownSeries cfg w row).map (rstripSlash ·.path) = some (rstripSlash m.seriesPath) := by
  simp only [IsRowItem, h, Option.map_eq_some_iff]
  constructor
  · rintro ⟨own, hown, htype, hpath, hn, hseasons⟩
    exact ⟨htype, hn, hseasons, own, hown, hpath.symm⟩
  · rintro ⟨htype, hn, hseasons, own, hown, hpath⟩
    exact ⟨own, hown, htype, hpath.symm, hn, hseasons⟩

/-- The folders agree exactly when every item that may be found is the item of the row. -/
theorem pathsAgree_iff {lib : MediaLibrary} {row : QueueEntry} :
    PathsAgree cfg w lib row ↔ ∀ path, Reports cfg w row path → targetPath row path ≠ "" →
      ∀ m ∈ lib.at (targetType row) (targetPath row path), IsRowItem cfg w row m := by
  cases hseason : row.seasonNumber with
  | none =>
      simp only [PathsAgree, hseason, targetPath, targetType, Option.isSome_none,
        Bool.false_eq_true, if_false, isRowItem_series hseason]
      constructor
      · intro h path hreports _ m hm
        obtain ⟨-, htype, hpath⟩ := MediaLibrary.mem_at.1 hm
        rw [hpath]
        exact ⟨htype, h path hreports (List.ne_nil_of_mem hm)⟩
      · intro h path hreports hsome
        obtain ⟨m, hm⟩ := List.exists_mem_of_ne_nil _ hsome
        rw [(h path hreports hreports.1 m hm).2, (MediaLibrary.mem_at.1 hm).2.2]
  | some n =>
      simp only [PathsAgree, hseason, targetPath, targetType, Option.isSome_some, if_true,
        isRowItem_season hseason]
      constructor
      · intro h path hreports hdir m hm
        exact ⟨(MediaLibrary.mem_at.1 hm).2.1, h ⟨path, hreports⟩ hdir m hm⟩
      · rintro h ⟨path, hreports⟩ hdir m hm
        exact (h path hreports hdir m hm).2

/-- **The item of the row is deleted, and no other, exactly under the condition.** -/
theorem deletesRowItem_iff (cfg : Config) (w : String → ArrLibrary)
    (media : String → MediaLibrary) (ctx : DeletionContext) :
    DeletesRowItem cfg w media ctx ↔ (Contactable (getClient cfg ctx.serverId) →
      PathsAgree cfg w (media (getClient cfg ctx.serverId).1) ctx.item.toQueueEntry) := by
  have hread : ∀ q : Query, q.touches = false → ∀ url key id, q = .embyDelete url key id →
      ∃ m ∈ (media url).items, m.id = id ∧ IsRowItem cfg w ctx.item.toQueueEntry m := by
    rintro q hq url key id rfl
    simp [Query.touches] at hq
  rw [DeletesRowItem, ← Prog.Always, Prog.always_iff_wp, wp_deleteConsolidated_content hread,
    pathsAgree_iff]
  refine imp_congr_right fun _ => forall_congr' fun path => imp_congr_right fun _ =>
    imp_congr_right fun _ => forall₂_congr fun m hm => ?_
  have hmem := (MediaLibrary.mem_at.1 hm).1
  constructor
  · intro h
    obtain ⟨m', hm', hid, hrow⟩ := h _ _ _ rfl
    rwa [MediaLibrary.eq_of_id hmem hm' hid.symm]
  · rintro hrow url key id hq
    cases hq
    exact ⟨m, hmem, rfl, hrow⟩

/-! ### One identifier on two servers -/

/-- Two Sonarr servers and one media server. -/
def twoSonarrs : Config where
  sonarrServers := [⟨"http://sonarr:8989", "k1", true⟩, ⟨"http://sonarr-anime:8989", "k2", true⟩]
  mediaServers := [⟨"0", "http://emby:8096", "k0", "emby"⟩]

/-- Series 7 is another one on each server. -/
def twoSeriesLibraries (url : String) : ArrLibrary :=
  if url = "http://sonarr:8989" then { series := [{ id := 7, path := "/tv/Dark" }] }
  else { series := [{ id := 7, path := "/anime/Monster" }] }

/-- Both series are in the media library. -/
def darkAndMonster : MediaLibrary where
  items := [⟨"10", .series, "/tv/Dark", "/tv/Dark", none, [1, 2]⟩,
    ⟨"20", .series, "/anime/Monster", "/anime/Monster", none, [1]⟩]
  nodup := by decide

/-- The whole series 7 of the second server. -/
def monster : QueueRow where
  embyId := "sonarr-7"
  title := "Monster"
  mediaType := "Series"
  libraryId := "anime"
  libraryName := "Anime"
  filePath := "/anime/Monster/S01E01.mkv"
  detectedAt := ""
  deleteAt := ""
  sonarrSeriesId := some 7
  arrServerUrl := some "http://sonarr-anime:8989"
  id := 1

/-- The answers when every server is up. -/
def servicesAnswer (w : String → ArrLibrary) (media : String → MediaLibrary) :
    ∀ q : Query, q.Answer
  | .embyItems url _ path type => .ok (.ok (((media url).at type path).map MediaItem.listed))
  | q => arrAnswer w q

theorem permits_servicesAnswer (w : String → ArrLibrary) (media : String → MediaLibrary)
    (q : Query) : Permits (ServicesHold w media) q (servicesAnswer w media q) := by
  have harr : (∀ b, MediaHolds media q b) → ∀ a : q.Answer, Permits (ArrHolds w) q a →
      Permits (ServicesHold w media) q a := by
    intro hmedia a ha
    match a with
    | .ok (.ok b) => exact ⟨ha, hmedia b⟩
    | .ok .noContent => trivial
    | .ok (.failed _) => trivial
    | .error _ => trivial
  cases q with
  | embyItems url key path type =>
      refine ⟨trivial, fun item hitem => ?_⟩
      obtain ⟨m, hm, rfl⟩ := List.mem_map.1 hitem
      exact ⟨m, (MediaLibrary.mem_at.1 hm).1, (MediaLibrary.mem_at.1 hm).2.1, rfl⟩
  | _ => exact harr (fun _ => trivial) _ (permits_arrAnswer w _)

/-- The row names the second server, and the series of the first one is deleted. -/
theorem not_deletesRowItem_twoSonarrs :
    ¬ DeletesRowItem twoSonarrs twoSeriesLibraries (fun _ => darkAndMonster)
      { item := { monster with serverId := some "0" } } := by
  intro h
  have hrun := Prog.run_play (permits_servicesAnswer twoSeriesLibraries fun _ => darkAndMonster)
    (deleteConsolidated twoSonarrs { item := { monster with serverId := some "0" } })
  obtain ⟨m, hm, hid, hrow⟩ :=
    h _ _ hrun _ (by decide) "http://emby:8096" "k0" "10" rfl
  rw [isRowItem_series rfl] at hrow
  revert hm hid hrow
  simp only [darkAndMonster, List.mem_cons, List.not_mem_nil, or_false]
  rintro (rfl | rfl) hid ⟨-, hpath⟩
  · revert hpath
    decide
  · revert hid
    decide

end Hygie
