/-
**Which episode files a consolidated deletion removes.**

Eligibility is decided when a library is scanned, and the entry of a season or of a series that the
scan inserts keeps the identifiers of the group and the path of one file.  Days later the deletion
lists the files of the season or series anew, and removes all of them.

Main definitions:

* `Reaches` — the files that the removal of a row from Sonarr may delete;
* `WasEligible` — a file of the group that a row was built from;
* `DeletesOnlyEligible` — in every run, only such files are deleted.

Main results:

* `wp_deleteFromArr_reaches` — the removal deletes what it reaches, and nothing else;
* `deletesOnlyEligible_iff` — **only eligible files are deleted exactly when those are all that the
  removal reaches**.
-/

import Hygie.ArrContent
import Hygie.Consolidation
import Hygie.DeletionPipeline

set_option relaxedAutoImplicit false
set_option autoImplicit false

namespace Hygie

/-! ### What a removal reaches -/

/-- The episode files that a request deletes, with the address of their server. -/
def Query.episodeFiles : Query → List (String × ℤ)
  | .sonarrDeleteFile url _ id => [(url, id)]
  | .sonarrDeleteFiles url _ ids => ids.map (url, ·)
  | _ => []

/-- The servers that a removal may act on: the one the row resolves to, or else any that lists a
file under the path of the row. -/
def RemovalServer (cfg : Config) (w : String → ArrLibrary) (row : QueueEntry)
    (url : String) : Prop :=
  url ≠ "" ∧
  match resolveArrServer cfg (getSonarrServers cfg) row.arrServerUrl with
  | some target => url = target.1
  | none => row.filePath ≠ "" ∧ (w url).locatesEpisode row.filePath ∧
      ∃ srv ∈ getSonarrServers cfg, srv.base = url

/-- **The files that a removal may delete**: those listed for the group, or the stored file, or the
first one with the path of the row. -/
def Reaches (cfg : Config) (w : String → ArrLibrary) (row : QueueEntry) (url : String) (id : ℤ) :
    Prop :=
  row.mediaType ≠ "Movie" ∧
  if isConsolidatedRow row then
    RemovalServer cfg w row url ∧ ∃ ef ∈ (w url).filesOf (row.sonarrSeriesId.getD 0),
      inGroup row.seasonNumber ef = true ∧ ef.id = id
  else
    match truthyId row.sonarrId with
    | some sid => RemovalServer cfg w row url ∧ id = sid
    | none => url ≠ "" ∧ id ≠ 0 ∧ row.filePath ≠ "" ∧
        ∃ srv ∈ getSonarrServers cfg, srv.base = url ∧
        ∃ series ∈ (w url).series, seriesMatches row.filePath series = true ∧
        ∃ ef, ((w url).filesOf series.id).find? (fun ef => ef.path == row.filePath) = some ef ∧
          ef.id = id

/-! ### What was eligible -/

/-- **A file of the group**: an entry of the group stands for the file with this identifier, on this
server unless the entry records none. -/
def WasEligible (cfg : Config) (group : List QueueEntry) (url : String) (id : ℤ) : Prop :=
  ∃ ep ∈ group, ep.sonarrId = some id ∧
    ∀ recorded, truthyText ep.arrServerUrl = some recorded →
      normalizeArrUrl cfg recorded = normalizeArrUrl cfg url

/-- The group of eligible episodes that a consolidated row was built from. -/
def rowGroup (unit : DeletionUnit) (eligible : List QueueEntry) (row : QueueEntry) :
    List QueueEntry :=
  groupOf unit eligible (row.sonarrSeriesId.getD 0, row.seasonNumber)

/-- **Only eligible files are deleted**, in every run of the removal of the row. -/
def DeletesOnlyEligible (cfg : Config) (w : String → ArrLibrary) (group : List QueueEntry)
    (row : QueueEntry) : Prop :=
  ∀ t o, Prog.Run (Permits (ArrHolds w)) (deleteFromArr cfg row) t o →
    ∀ q ∈ t, ∀ f ∈ q.episodeFiles, WasEligible cfg group f.1 f.2

/-! ### The removal -/

variable {cfg : Config} {w : String → ArrLibrary} {G : String → ℤ → Prop}

/-- The requirement on the queries: the files they delete are in `G`. -/
abbrev DeletesIn (G : String → ℤ → Prop) (q : Query) : Prop := ∀ f ∈ q.episodeFiles, G f.1 f.2

theorem deletesIn_of_not_touches (q : Query) (h : q.touches = false) : DeletesIn G q := by
  intro f hf
  cases q <;> simp [Query.touches, Query.episodeFiles] at h hf

/-- A removal in its frame, when the removal on a known server deletes the files in `F`. -/
theorem wp_onSonarrTarget_reaches {row : QueueEntry} {remove : String → String → Act Bool}
    {F : String → ℤ → Prop}
    (hremove : ∀ url key, url ≠ "" → (Prog.wp (Permits (ArrHolds w)) (DeletesIn G)
      (remove url key) (fun _ => True) (fun _ => True) ↔ ∀ id, F url id → G url id)) :
    Prog.wp (Permits (ArrHolds w)) (DeletesIn G)
        (onSonarrTarget cfg "" "" row.arrServerUrl row.filePath remove) (fun _ => True)
        (fun _ => True) ↔
      ∀ url id, RemovalServer cfg w row url ∧ F url id → G url id := by
  have hat : ∀ srv ∈ getSonarrServers cfg, Prog.wp (Permits (ArrHolds w)) (DeletesIn G)
      (removeAt remove srv.target) (fun _ => True) (fun _ => True) ↔
        (srv.base ≠ "" → ∀ id, F srv.base id → G srv.base id) := by
    intro srv hsrv
    have hkey : srv.target.2 ≠ "" := (getArrServers_complete hsrv).2
    rw [removeAt, Prog.wp_ite, Prog.wp_pure]
    by_cases hbase : srv.base = ""
    · simp [ArrServer.target, hbase]
    · have hne : ¬ (srv.target.1 = "" ∨ srv.target.2 = "") := not_or.2 ⟨hbase, hkey⟩
      simp only [hne, hremove _ _ (show srv.target.1 ≠ "" from hbase), false_implies,
        not_false_eq_true, true_implies, true_and, hbase, ne_eq]
      rfl
  rw [wp_onSonarrTarget_content deletesIn_of_not_touches]
  simp only [RemovalServer]
  cases hresolve : resolveArrServer cfg (getSonarrServers cfg) row.arrServerUrl with
  | some target =>
      obtain ⟨srv, hsrv, rfl⟩ := resolveArrServer_mem hresolve
      simp only [hat srv hsrv]
      constructor
      · rintro h _ id ⟨⟨hurl, rfl⟩, hF⟩
        exact h hurl id hF
      · exact fun h hbase id hF => h _ id ⟨⟨hbase, rfl⟩, hF⟩
  | none =>
      simp only [true_and]
      constructor
      · rintro h _ id ⟨⟨hurl, hpath, hlocates, srv, hsrv, rfl⟩, hF⟩
        exact (hat srv hsrv).1 (h hpath srv hsrv hurl hlocates) hurl id hF
      · intro h hpath srv hsrv hbase hlocates
        exact (hat srv hsrv).2 fun _ id hF => h _ id ⟨⟨hbase, hpath, hlocates, srv, hsrv, rfl⟩, hF⟩

/-- A bulk removal deletes the files listed for its group. -/
theorem wipe_reaches {url key : String} (hurl : url ≠ "") {seriesId : ℤ}
    {inGroup : EpisodeFile → Bool} :
    (True ∧ ∀ files, ArrHolds w (.sonarrEpisodeFiles url key seriesId) files →
        if (files.filter inGroup).map EpisodeFile.id = [] then True
        else DeletesIn G (.sonarrDeleteFiles url key ((files.filter inGroup).map EpisodeFile.id)) ∧
          True) ↔
      ∀ id, (∃ ef ∈ (w url).filesOf seriesId, inGroup ef = true ∧ ef.id = id) → G url id := by
  have hdeletes : ∀ files : List EpisodeFile,
      DeletesIn G (.sonarrDeleteFiles url key ((files.filter inGroup).map EpisodeFile.id)) ↔
        ∀ id, (∃ ef ∈ files, inGroup ef = true ∧ ef.id = id) → G url id := by
    intro files
    simp only [DeletesIn, Query.episodeFiles, List.mem_map, List.mem_filter]
    constructor
    · rintro h id ⟨ef, hef, hgroup, rfl⟩
      exact h (url, ef.id) ⟨ef.id, ⟨ef, ⟨hef, hgroup⟩, rfl⟩, rfl⟩
    · rintro h _ ⟨_, ⟨ef, ⟨hef, hgroup⟩, rfl⟩, rfl⟩
      exact h ef.id ⟨ef, hef, hgroup, rfl⟩
  simp only [true_and, and_true, hdeletes]
  constructor
  · rintro h id ⟨ef, hef, hgroup, rfl⟩
    have hall := h _ ⟨hurl, rfl⟩
    rw [if_neg] at hall
    · exact hall ef.id ⟨ef, hef, hgroup, rfl⟩
    · exact List.ne_nil_of_mem (List.mem_map_of_mem (List.mem_filter.2 ⟨hef, hgroup⟩))
  · rintro h _ ⟨-, rfl⟩
    split_ifs
    exact h

/-- The removal of one file, on a known server. -/
theorem wp_sonarrDeleteFileAt_reaches (id : ℤ) (url key : String) :
    Prog.wp (Permits (ArrHolds w)) (DeletesIn G) (sonarrDeleteFileAt id url key) (fun _ => True)
        (fun _ => True) ↔ (id ≠ 0 → G url id) := by
  rw [wp_sonarrDeleteFileAt deletesIn_of_not_touches]
  simp [DeletesIn, Query.episodeFiles]

/-- The removal of a file found on a server. -/
theorem wp_found {srv : ArrServer} (hsrv : srv ∈ getSonarrServers cfg) (hbase : srv.base ≠ "")
    {id : ℤ} :
    Prog.wp (Permits (ArrHolds w)) (DeletesIn G)
        (sonarrDeleteEpisodeFile cfg id srv.target.1 srv.target.2 none "") (fun _ => True)
        (fun _ => True) ↔ (id ≠ 0 → G srv.base id) := by
  have hne : ¬ (srv.target.1 = "" ∨ srv.target.2 = "") :=
    not_or.2 ⟨hbase, (getArrServers_complete hsrv).2⟩
  rw [sonarrDeleteEpisodeFile, onSonarrTarget, sonarrTarget, if_neg hne, Prog.wp_bind, Prog.wp_pure]
  simp only
  rw [removeAt, if_neg hne]
  exact wp_sonarrDeleteFileAt_reaches id _ _

/-- **A removal deletes what it reaches**, and nothing else. -/
theorem wp_deleteFromArr_reaches (row : QueueEntry) :
    Prog.wp (Permits (ArrHolds w)) (DeletesIn G) (deleteFromArr cfg row) (fun _ => True)
        (fun _ => True) ↔ ∀ url id, Reaches cfg w row url id → G url id := by
  by_cases hmovie : row.mediaType = "Movie"
  · have halways : Prog.Always (Permits (ArrHolds w)) (DeletesIn G) (deleteFromArr cfg row) :=
      always_deleteFromArr_movie deletesIn_of_not_touches
        (fun _ _ _ _ _ hf => by simp [Query.episodeFiles] at hf) hmovie
    simp [Prog.always_iff_wp.1 halways, Reaches, hmovie]
  · simp only [Reaches, ne_eq, hmovie, not_false_eq_true, true_and]
    rw [deleteFromArr, if_neg hmovie]
    cases hrow : isConsolidatedRow row with
    | true =>
        simp only [if_true]
        cases hseason : row.seasonNumber with
        | some n =>
            refine wp_onSonarrTarget_reaches fun url key hurl => ?_
            rw [wp_sonarrDeleteSeasonAt deletesIn_of_not_touches]
            exact wipe_reaches hurl
        | none =>
            refine wp_onSonarrTarget_reaches fun url key hurl => ?_
            rw [wp_sonarrDeleteSeriesAt deletesIn_of_not_touches]
            exact wipe_reaches hurl
    | false =>
        simp only [Bool.false_eq_true, if_false]
        cases hsid : truthyId row.sonarrId with
        | some sid =>
            have hne : sid ≠ 0 := (truthyId_eq_some.1 hsid).2
            refine wp_onSonarrTarget_reaches (F := fun _ id => id = sid) fun url key _ => ?_
            rw [wp_sonarrDeleteFileAt_reaches]
            simp [hne]
        | none =>
            have hP : ∀ q : Query, q.touches = false → DeletesIn G q := deletesIn_of_not_touches
            simp only
            rw [Prog.wp_bind, (searches_sonarrFindByPathFull hP row.filePath).wp_of_none
              ((Prog.wp_pure _).2 trivial) trivial]
            constructor
            · rintro h _ id ⟨hbase, hid, hpath, srv, hsrv, rfl, series, hseries, hmatch, ef, hef,
                rfl⟩
              exact (wp_found hsrv hbase).1 (h (ef.id, srv.target) ⟨hpath, srv, hsrv, _,
                ⟨hbase, rfl⟩, series, hseries, hmatch, _, ⟨hbase, rfl⟩, ef, hef, rfl⟩) hid
            · rintro h _ ⟨hpath, srv, hsrv, _, ⟨hbase, rfl⟩, series, hseries, hmatch, _, ⟨-, rfl⟩,
                ef, hef, rfl⟩
              exact (wp_found hsrv hbase).2 fun hid => h srv.base ef.id
                ⟨hbase, hid, hpath, srv, hsrv, rfl, series, hseries, hmatch, ef, hef, rfl⟩

/-! ### When only eligible files are deleted -/

/-- **The condition**: every file that a server of the removal lists for the group, at the moment of
the deletion, belongs to the eligible episodes.  A series whose identifier is zero is not taken for
a group, and there the file with the path of the row has to belong to them. -/
def ListsOnlyEligible (cfg : Config) (w : String → ArrLibrary) (group : List QueueEntry)
    (row : QueueEntry) : Prop :=
  row.mediaType ≠ "Movie" →
  if row.sonarrSeriesId.getD 0 = 0 then
    row.filePath ≠ "" → ∀ srv ∈ getSonarrServers cfg, srv.base ≠ "" →
      ∀ series ∈ (w srv.base).series, seriesMatches row.filePath series = true →
      ∀ ef, ((w srv.base).filesOf series.id).find? (fun ef => ef.path == row.filePath) = some ef →
        ef.id ≠ 0 → WasEligible cfg group srv.base ef.id
  else
    ∀ url, RemovalServer cfg w row url → ∀ ef ∈ (w url).filesOf (row.sonarrSeriesId.getD 0),
      inGroup row.seasonNumber ef = true → WasEligible cfg group url ef.id

theorem listsOnlyEligible_iff {group : List QueueEntry} {row : QueueEntry}
    (hrow : row.sonarrId = none) :
    ListsOnlyEligible cfg w group row ↔
      ∀ url id, Reaches cfg w row url id → WasEligible cfg group url id := by
  have hconsolidated : isConsolidatedRow row = true ↔ row.sonarrSeriesId.getD 0 ≠ 0 := by
    rw [isConsolidatedRow, hrow]
    cases row.sonarrSeriesId <;> simp [truthyId, Option.filter]
  simp only [ListsOnlyEligible, Reaches, hrow, truthyId_none]
  by_cases hzero : row.sonarrSeriesId.getD 0 = 0
  · have hnot : isConsolidatedRow row = false := by simp [← Bool.not_eq_true, hconsolidated, hzero]
    simp only [hzero, if_true, hnot, Bool.false_eq_true, if_false]
    constructor
    · rintro h _ _ ⟨hmovie, hbase, hid, hpath, srv, hsrv, rfl, series, hseries, hmatch, ef,
        hef, rfl⟩
      exact h hmovie hpath srv hsrv hbase series hseries hmatch ef hef hid
    · intro h hmovie hpath srv hsrv hbase series hseries hmatch ef hef hid
      exact h _ _ ⟨hmovie, hbase, hid, hpath, srv, hsrv, rfl, series, hseries, hmatch, ef, hef, rfl⟩
  · simp only [hzero, if_false, hconsolidated.2 hzero, if_true]
    constructor
    · rintro h url _ ⟨hmovie, hurl, ef, hef, hgroup, rfl⟩
      exact h hmovie url hurl ef hef hgroup
    · intro h hmovie url hurl ef hef hgroup
      exact h url _ ⟨hmovie, hurl, ef, hef, hgroup, rfl⟩

/-- **Only eligible files are deleted** for a row that the consolidation inserted, exactly when the
servers list no others for its group at the moment of the deletion. -/
theorem deletesOnlyEligible_iff (cfg : Config) (w : String → ArrLibrary)
    (parseIsoDt : String → Option ℤ) (eligible : List QueueEntry) (cache : SonarrCache)
    (unit : DeletionUnit) (queuedIds : Option (List String)) {row : QueueEntry}
    (hrow : row ∈ consolidateAndInsert parseIsoDt eligible cache unit queuedIds) :
    DeletesOnlyEligible cfg w (rowGroup unit eligible row) row ↔
      ListsOnlyEligible cfg w (rowGroup unit eligible row) row := by
  obtain ⟨_, -, hsonarr, -⟩ := mem_consolidateAndInsert hrow
  rw [listsOnlyEligible_iff hsonarr, ← wp_deleteFromArr_reaches, ← Prog.always_iff_wp]
  rfl

/-! ### A file added while the row waits -/

/-- One Sonarr server. -/
def oneSonarr : Config where
  sonarrServers := [⟨"http://sonarr:8989", "k", true⟩]

/-- A file of the season when the library is scanned. -/
def firstEpisode : QueueEntry where
  embyId := "31"
  title := "Secrets"
  mediaType := "Episode"
  libraryId := "tv"
  libraryName := "Series"
  filePath := "/tv/Dark/Season 1/E01.mkv"
  detectedAt := "2026-01-01T00:00:00+00:00"
  deleteAt := "2026-01-08T00:00:00+00:00"
  sonarrId := some 11
  sonarrSeriesId := some 7
  seasonNumber := some 1
  arrServerUrl := some "http://sonarr:8989"

/-- The other one. -/
def secondEpisode : QueueEntry :=
  { firstEpisode with
    embyId := "32"
    title := "Lies"
    filePath := "/tv/Dark/Season 1/E02.mkv"
    sonarrId := some 12 }

/-- The cached listing at that time. -/
def seasonCache : SonarrCache :=
  ["/tv/Dark/Season 1/E01.mkv", "/tv/Dark/Season 1/E02.mkv"].map fun path =>
    (path, { seriesId := some 7, seasonNumber := some 1, seriesTitle := "Dark" })

/-- The row that is inserted. -/
def darkSeason : QueueEntry :=
  { firstEpisode with
    embyId := "sonarr-season:7:1"
    title := "Dark — Saison 1"
    sonarrId := none }

theorem darkSeason_mem :
    darkSeason ∈ consolidateAndInsert (fun _ => none) [firstEpisode, secondEpisode] seasonCache
      .season none := by
  have hinsert : consolidateAndInsert (fun _ => none) [firstEpisode, secondEpisode] seasonCache
      .season none = [darkSeason] := by decide
  rw [hinsert]
  exact List.mem_singleton_self _

/-- A library of files of season 1. -/
def seasonFiles (ids : List ℤ) : ArrLibrary where
  episodeFiles := ids.map fun id => { id := id, seriesId := 7, seasonNumber := some 1 }

/-- While only the eligible files are listed, only they are deleted. -/
theorem deletesOnlyEligible_darkSeason :
    DeletesOnlyEligible oneSonarr (fun _ => seasonFiles [11, 12])
      (rowGroup .season [firstEpisode, secondEpisode] darkSeason) darkSeason := by
  refine (deletesOnlyEligible_iff oneSonarr (fun _ => seasonFiles [11, 12]) (fun _ => none)
    [firstEpisode, secondEpisode] seasonCache .season none darkSeason_mem).2 ?_
  rintro - url ⟨-, hurl⟩ ef hef -
  have hid : ef.id = 11 ∨ ef.id = 12 := by
    simp only [seasonFiles, ArrLibrary.filesOf, List.mem_filter, List.mem_map, List.mem_pair] at hef
    obtain ⟨⟨id, hid, rfl⟩, -⟩ := hef
    exact hid
  have hsonarr : url = "http://sonarr:8989" := hurl
  have hserver : ∀ recorded, truthyText firstEpisode.arrServerUrl = some recorded →
      normalizeArrUrl oneSonarr recorded = normalizeArrUrl oneSonarr url := by
    rintro _ ⟨⟩
    rw [hsonarr]
  rcases hid with hid | hid
  · exact ⟨firstEpisode, by decide, congrArg some hid.symm, hserver⟩
  · exact ⟨secondEpisode, by decide, congrArg some hid.symm, hserver⟩

/-- A file that was added since is deleted with the others. -/
theorem not_deletesOnlyEligible_added :
    darkSeason ∈ consolidateAndInsert (fun _ => none) [firstEpisode, secondEpisode] seasonCache
        .season none ∧
      ¬ DeletesOnlyEligible oneSonarr (fun _ => seasonFiles [11, 12, 13])
        (rowGroup .season [firstEpisode, secondEpisode] darkSeason) darkSeason := by
  refine ⟨darkSeason_mem, fun h => ?_⟩
  have hrun := Prog.run_play (permits_arrAnswer fun _ => seasonFiles [11, 12, 13])
    (deleteFromArr oneSonarr darkSeason)
  obtain ⟨ep, hep, hid, -⟩ := h _ _ hrun
    (.sonarrDeleteFiles "http://sonarr:8989" "k" [11, 12, 13]) (by decide)
    ("http://sonarr:8989", 13) (by decide)
  rw [rowGroup, groupOf, List.mem_filter, List.mem_pair] at hep
  obtain ⟨rfl | rfl, -⟩ := hep <;>
  · revert hid
    decide

end Hygie
