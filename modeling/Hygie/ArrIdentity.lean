/-
**Which server a stored identifier is deleted on.**

The identifier of a film, of an episode file or of a series names something on the server that
issued it and something else, or nothing, on every other one.  The four removals resolve the server
from the address recorded on the row, from there being one server only, or, failing both, from a
file that some server lists under the path of the row.  In the last case the server is found through
one object and the removal is sent under the stored identifier, which on that server may belong to
another.

Main definitions:

* `ArrDelete`, `ArrDelete.run` — the four removals under a stored identifier;
* `ArrDelete.Licensed` — the servers on which the identifier may be deleted;
* `ArrDelete.KeepsIdentity` — in every run, deletions go to licensed servers only, and without one
  the result is `False`;
* `ArrDelete.Sound` — the condition on the configuration and on what the servers hold.

Main results:

* `ArrDelete.wp_run` — all that a removal can ask and return;
* `ArrDelete.keepsIdentity_iff` — **identity is kept exactly under the condition**.
-/

import Hygie.ArrContent

set_option relaxedAutoImplicit false
set_option autoImplicit false

namespace Hygie

/-- A removal from Radarr or Sonarr under a stored identifier. -/
inductive ArrDelete
  | movie (radarrId : ℤ) (deleteFiles : Bool)
  | episodeFile (episodeFileId : ℤ)
  | season (seriesId seasonNumber : ℤ)
  | series (seriesId : ℤ)
  deriving DecidableEq, Repr

/-- The base address of the server that a deletion in Radarr or Sonarr is sent to. -/
def Query.arrDeleteUrl : Query → Option String
  | .radarrDelete url .. | .sonarrDeleteFile url .. | .sonarrDeleteFiles url .. => some url
  | _ => none

namespace ArrDelete

/-- The servers that a removal chooses from. -/
def servers (cfg : Config) : ArrDelete → List ArrServer
  | movie .. => getRadarrServers cfg
  | _ => getSonarrServers cfg

/-- The removal, without an explicit server. -/
def run (cfg : Config) (arrServerUrl : Option String) (filePath : String) : ArrDelete → Act Bool
  | movie id deleteFiles => radarrDeleteById cfg id deleteFiles arrServerUrl filePath
  | episodeFile id => sonarrDeleteEpisodeFile cfg id "" "" arrServerUrl filePath
  | season seriesId n => sonarrDeleteSeason cfg seriesId n "" "" arrServerUrl filePath
  | series seriesId => sonarrDeleteSeries cfg seriesId "" "" arrServerUrl filePath

/-- A file of the row's path is listed on the server. -/
def LocatedBy (lib : ArrLibrary) (filePath : String) : ArrDelete → Prop
  | movie .. => lib.locatesMovie filePath
  | _ => lib.locatesEpisode filePath

/-- The object that carries the stored identifier on the server is one that matches the path. -/
def CarriedBy (lib : ArrLibrary) (filePath : String) : ArrDelete → Prop
  | movie id _ => ∃ movie ∈ lib.movies, movie.id = id ∧ movieMatches filePath movie = true
  | episodeFile id => ∃ ef ∈ lib.episodeFiles, ef.id = id ∧ ef.path = filePath
  | season seriesId _ | series seriesId => ∃ series ∈ lib.series, series.id = seriesId ∧
      seriesMatches filePath series = true ∧ ∃ ef ∈ lib.filesOf seriesId, ef.path = filePath

/-- **A licensed server**: the one whose address the row records, or the only one when the row
records none, or one on which the stored identifier belongs to the object found by the path. -/
def Licensed (cfg : Config) (w : String → ArrLibrary) (arrServerUrl : Option String)
    (filePath : String) (op : ArrDelete) (url : String) : Prop :=
  (∃ recorded, truthyText arrServerUrl = some recorded ∧ ∃ srv ∈ op.servers cfg,
      normalizeArrUrl cfg srv.url = normalizeArrUrl cfg recorded ∧ srv.base = url) ∨
  (truthyText arrServerUrl = none ∧ ∃ srv, op.servers cfg = [srv] ∧ srv.base = url) ∨
  op.CarriedBy (w url) filePath

/-- **Identity is kept**: in every run, deletions go to licensed servers only, and when no server is
licensed the result is `False`. -/
def KeepsIdentity (cfg : Config) (w : String → ArrLibrary) (arrServerUrl : Option String)
    (filePath : String) (op : ArrDelete) : Prop :=
  ∀ t o, Prog.Run (Permits (ArrHolds w)) (op.run cfg arrServerUrl filePath) t o →
    (∀ q ∈ t, ∀ url, q.arrDeleteUrl = some url →
      op.Licensed cfg w arrServerUrl filePath url) ∧
    ((∀ url, ¬ op.Licensed cfg w arrServerUrl filePath url) →
      o.Meets (· = false) fun _ => False)

/-! ### What a removal does -/

/-- The address that a removal on the given server is sent to, if it is sent at all: Radarr's falls
back to the default server when the address is empty. -/
def sendsTo (cfg : Config) (target : String × String) : ArrDelete → Option String
  | movie id _ =>
      let creds := radarrCreds cfg target.1 target.2
      if Addressable creds id then some creds.1 else none
  | episodeFile id => if Addressable target id then some target.1 else none
  | season .. | series .. => if target.1 = "" ∨ target.2 = "" then none else some target.1

/-- There is something to delete on the server: always for a single object, and for a group when
files of it are listed. -/
def Removes (lib : ArrLibrary) : ArrDelete → Prop
  | movie .. | episodeFile _ => True
  | season seriesId n => ∃ ef ∈ lib.filesOf seriesId, inSeason n ef = true
  | series seriesId => ∃ ef, ef ∈ lib.filesOf seriesId

variable {cfg : Config} {w : String → ArrLibrary} {arrServerUrl : Option String}
  {filePath : String} {G : String → Prop} {R : Bool → Prop} {C : Prop}

/-- A removal on a known server: it may fail, and if it is sent it may succeed and deletes what is
there. -/
def Acts (cfg : Config) (w : String → ArrLibrary) (G : String → Prop) (R : Bool → Prop)
    (op : ArrDelete) (target : String × String) : Prop :=
  R false ∧ ∀ url, op.sendsTo cfg target = some url → R true ∧ (op.Removes (w url) → G url)

/-- The requirement on the queries: deletions go to addresses in `G`. -/
abbrev GoesTo (G : String → Prop) (q : Query) : Prop := ∀ url, q.arrDeleteUrl = some url → G url

theorem goesTo_of_not_touches (q : Query) (h : q.touches = false) : GoesTo G q := by
  intro url hurl
  cases q <;> simp [Query.touches, Query.arrDeleteUrl] at h hurl

theorem wp_radarrDelete_acts (id : ℤ) (deleteFiles : Bool) (target : String × String) :
    Prog.wp (Permits (ArrHolds w)) (GoesTo G)
        (radarrDelete cfg id deleteFiles target.1 target.2) R (fun _ => C) ↔
      Acts cfg w G R (movie id deleteFiles) target := by
  rw [wp_radarrDelete goesTo_of_not_touches, Acts, sendsTo]
  refine and_congr_right fun _ => ?_
  by_cases h : Addressable (radarrCreds cfg target.1 target.2) id
  · simp [h, Removes, GoesTo, Query.arrDeleteUrl, and_comm]
  · simp [h]

theorem wp_sonarrDeleteFileAt_acts (id : ℤ) (target : String × String) :
    Prog.wp (Permits (ArrHolds w)) (GoesTo G) (removeAt (sonarrDeleteFileAt id) target) R
        (fun _ => C) ↔ Acts cfg w G R (episodeFile id) target := by
  rw [removeAt, Prog.wp_ite, wp_sonarrDeleteFileAt goesTo_of_not_touches, Prog.wp_pure, Acts,
    sendsTo]
  by_cases h : target.1 = "" ∨ target.2 = ""
  · have h' : ¬ Addressable target id := by tauto
    simp [h, h']
  · by_cases hid : id = 0
    · simp [h, hid]
    · have h' : Addressable target id := by tauto
      simp [h', Removes, GoesTo, Query.arrDeleteUrl, and_comm]

/-- What a bulk removal does, once the listing is what the server holds. -/
theorem wipe_acts {inGroup : EpisodeFile → Bool} (url key : String) (seriesId : ℤ) :
    (R false ∧ ∀ files, ArrHolds w (.sonarrEpisodeFiles url key seriesId) files →
        if (files.filter inGroup).map EpisodeFile.id = [] then R true
        else GoesTo G (.sonarrDeleteFiles url key ((files.filter inGroup).map EpisodeFile.id)) ∧
          R true) ↔
      R false ∧ (url ≠ "" → R true ∧
        ((∃ ef ∈ (w url).filesOf seriesId, inGroup ef = true) → G url)) := by
  refine and_congr_right fun _ => ?_
  have hempty : ((((w url).filesOf seriesId).filter inGroup).map EpisodeFile.id = []) ↔
      ¬ ∃ ef ∈ (w url).filesOf seriesId, inGroup ef = true := by
    simp [List.map_eq_nil_iff, List.filter_eq_nil_iff]
  have hgoes : ∀ ids, GoesTo G (.sonarrDeleteFiles url key ids) ↔ G url := fun ids => by
    simp [GoesTo, Query.arrDeleteUrl]
  simp only [ArrHolds, and_imp, forall_eq_apply_imp_iff, hempty, hgoes]
  refine forall_congr' fun _ => ?_
  by_cases hex : ∃ ef ∈ (w url).filesOf seriesId, inGroup ef = true
  · rw [if_neg (not_not_intro hex)]
    exact ⟨fun H => ⟨H.2, fun _ => H.1⟩, fun H => ⟨H.2 hex, H.1⟩⟩
  · simp only [hex, not_false_eq_true, if_true, false_implies, and_true]

theorem wp_season_acts (seriesId n : ℤ) (target : String × String) :
    Prog.wp (Permits (ArrHolds w)) (GoesTo G) (removeAt (sonarrDeleteSeasonAt seriesId n) target)
        R (fun _ => C) ↔ Acts cfg w G R (season seriesId n) target := by
  rw [removeAt, Prog.wp_ite, wp_sonarrDeleteSeasonAt goesTo_of_not_touches, wipe_acts,
    Prog.wp_pure, Acts, sendsTo]
  by_cases h : target.1 = "" ∨ target.2 = ""
  · rw [if_pos h]
    simp [h]
  · have hurl : target.1 ≠ "" := fun h' => h (.inl h')
    rw [if_neg h]
    simp only [Option.some.injEq, forall_eq', Removes]
    exact ⟨fun H => ⟨(H.2 h).1, (H.2 h).2 hurl⟩, fun H =>
      ⟨fun h' => absurd h' h, fun _ => ⟨H.1, fun _ => H.2⟩⟩⟩

theorem wp_series_acts (seriesId : ℤ) (target : String × String) :
    Prog.wp (Permits (ArrHolds w)) (GoesTo G) (removeAt (sonarrDeleteSeriesAt seriesId) target)
        R (fun _ => C) ↔ Acts cfg w G R (series seriesId) target := by
  rw [removeAt, Prog.wp_ite, wp_sonarrDeleteSeriesAt goesTo_of_not_touches, wipe_acts,
    Prog.wp_pure, Acts, sendsTo]
  by_cases h : target.1 = "" ∨ target.2 = ""
  · rw [if_pos h]
    simp [h]
  · have hurl : target.1 ≠ "" := fun h' => h (.inl h')
    rw [if_neg h]
    simp only [Option.some.injEq, forall_eq', Removes, and_true]
    exact ⟨fun H => ⟨(H.2 h).1, (H.2 h).2 hurl⟩, fun H =>
      ⟨fun h' => absurd h' h, fun _ => ⟨H.1, fun _ => H.2⟩⟩⟩

/-- **A removal under a stored identifier** acts on the server the row resolves to, or else, if the
row has a path, on any server that lists a file under it. -/
theorem wp_run (op : ArrDelete) :
    Prog.wp (Permits (ArrHolds w)) (GoesTo G) (op.run cfg arrServerUrl filePath) R (fun _ => C) ↔
      match resolveArrServer cfg (op.servers cfg) arrServerUrl with
      | some target => Acts cfg w G R op target
      | none => R false ∧ (filePath ≠ "" → ∀ srv ∈ op.servers cfg, srv.base ≠ "" →
          op.LocatedBy (w srv.base) filePath → Acts cfg w G R op srv.target) := by
  cases op with
  | movie id deleteFiles =>
      simp only [run, wp_radarrDeleteById_content goesTo_of_not_touches, wp_radarrDelete_acts]
      rfl
  | episodeFile id =>
      simp only [run, sonarrDeleteEpisodeFile, wp_onSonarrTarget_content goesTo_of_not_touches,
        @wp_sonarrDeleteFileAt_acts cfg]
      rfl
  | season seriesId n =>
      simp only [run, sonarrDeleteSeason, wp_onSonarrTarget_content goesTo_of_not_touches,
        @wp_season_acts cfg]
      rfl
  | series seriesId =>
      simp only [run, sonarrDeleteSeries, wp_onSonarrTarget_content goesTo_of_not_touches,
        @wp_series_acts cfg]
      rfl

/-! ### When identity is kept -/

/-- **The condition.**  The row resolves to a server; or else, whenever a server lists a file under
the path of the row, the stored identifier belongs to that object there; a group without files,
where nothing is deleted, may also belong to it elsewhere.  An address that is empty without its
slashes does not count as resolved when Radarr's default server takes its place. -/
def Sound (cfg : Config) (w : String → ArrLibrary) (arrServerUrl : Option String)
    (filePath : String) (op : ArrDelete) : Prop :=
  match resolveArrServer cfg (op.servers cfg) arrServerUrl with
  | some target => target.1 = "" → ∀ url, op.sendsTo cfg target = some url →
      op.Licensed cfg w arrServerUrl filePath url
  | none => filePath ≠ "" → ∀ srv ∈ op.servers cfg, srv.base ≠ "" →
      op.LocatedBy (w srv.base) filePath → ∀ url, op.sendsTo cfg srv.target = some url →
        op.CarriedBy (w url) filePath ∨
          (¬ op.Removes (w url) ∧ ∃ other, op.CarriedBy (w other) filePath)

/-- A server the row resolves to is licensed. -/
theorem licensed_of_resolved {op : ArrDelete} {target : String × String}
    (h : resolveArrServer cfg (op.servers cfg) arrServerUrl = some target) :
    op.Licensed cfg w arrServerUrl filePath target.1 := by
  cases hu : truthyText arrServerUrl with
  | some recorded =>
      simp only [resolveArrServer, hu, Option.map_eq_some_iff] at h
      obtain ⟨srv, hsrv, rfl⟩ := h
      have hurl := List.find?_some hsrv
      exact .inl ⟨recorded, hu, srv, List.mem_of_find?_eq_some hsrv, by simpa using hurl, rfl⟩
  | none =>
      rcases hservers : op.servers cfg with _ | ⟨srv, _ | ⟨_, _⟩⟩
      · simp [resolveArrServer, hu, hservers] at h
      · simp only [resolveArrServer, hu, hservers, Option.some.injEq] at h
        exact .inr (.inl ⟨hu, srv, hservers, congrArg Prod.fst h⟩)
      · simp [resolveArrServer, hu, hservers] at h

theorem key_of_resolved {op : ArrDelete} {target : String × String}
    (h : resolveArrServer cfg (op.servers cfg) arrServerUrl = some target) : target.2 ≠ "" := by
  obtain ⟨srv, hsrv, rfl⟩ := resolveArrServer_mem h
  cases op <;> exact (getArrServers_complete hsrv).2

/-- When the row resolves to no server, only the object found by the path licenses one. -/
theorem licensed_iff_of_unresolved {op : ArrDelete} {url : String}
    (h : resolveArrServer cfg (op.servers cfg) arrServerUrl = none) :
    op.Licensed cfg w arrServerUrl filePath url ↔ op.CarriedBy (w url) filePath := by
  refine ⟨?_, fun hc => .inr (.inr hc)⟩
  rintro (⟨recorded, hu, srv, hsrv, hurl, -⟩ | ⟨hu, srv, hsrv, -⟩ | hc)
  · simp only [resolveArrServer, hu, Option.map_eq_none_iff, List.find?_eq_none] at h
    exact absurd (by simpa using hurl) (h srv hsrv)
  · simp [resolveArrServer, hu, hsrv] at h
  · exact hc

/-- The address a removal is sent to is the one of its server, unless that is empty. -/
theorem sendsTo_eq {op : ArrDelete} {target : String × String} {url : String}
    (htarget : target.1 ≠ "") (hkey : target.2 ≠ "") (h : op.sendsTo cfg target = some url) :
    url = target.1 := by
  have hcreds : radarrCreds cfg target.1 target.2 = target := by
    rw [radarrCreds, resolveArrCreds, if_neg (by tauto)]
  cases op <;> simp only [sendsTo, hcreds] at h <;> split_ifs at h <;> simp_all

/-- What keeping identity demands of a removal on a known server. -/
theorem acts_licensed_iff {op : ArrDelete} {L : String → Prop} {target : String × String} :
    Acts cfg w L (fun b => (∀ url, ¬ L url) → b = false) op target ↔
      ∀ url, op.sendsTo cfg target = some url →
        L url ∨ (¬ op.Removes (w url) ∧ ∃ other, L other) := by
  have htrue : ((∀ url, ¬ L url) → true = false) ↔ ∃ url, L url := by
    simp
  rw [Acts, htrue]
  simp only [implies_true, true_and]
  refine forall₂_congr fun url _ => ?_
  by_cases hremoves : op.Removes (w url)
  · simp only [hremoves, true_implies, not_true_eq_false, false_and, or_false]
    exact ⟨And.right, fun h => ⟨⟨url, h⟩, h⟩⟩
  · simp only [hremoves, false_implies, and_true, not_false_eq_true, true_and]
    exact ⟨.inr, fun h => h.elim (fun h => ⟨url, h⟩) id⟩

/-- **Identity is kept exactly under the condition.** -/
theorem keepsIdentity_iff (cfg : Config) (w : String → ArrLibrary) (arrServerUrl : Option String)
    (filePath : String) (op : ArrDelete) :
    op.KeepsIdentity cfg w arrServerUrl filePath ↔ op.Sound cfg w arrServerUrl filePath := by
  have hwp : op.KeepsIdentity cfg w arrServerUrl filePath ↔
      Prog.wp (Permits (ArrHolds w)) (GoesTo (op.Licensed cfg w arrServerUrl filePath))
        (op.run cfg arrServerUrl filePath)
        (fun b => (∀ url, ¬ op.Licensed cfg w arrServerUrl filePath url) → b = false)
        (fun _ => ∃ url, op.Licensed cfg w arrServerUrl filePath url) := by
    rw [Prog.wp_iff, KeepsIdentity]
    refine forall₃_congr fun t o _ => and_congr_right fun _ => ?_
    cases o <;> simp [Prog.Outcome.Meets]
  rw [hwp, wp_run, Sound]
  cases hresolve : resolveArrServer cfg (op.servers cfg) arrServerUrl with
  | some target =>
      show Acts .. ↔ _
      rw [acts_licensed_iff]
      constructor
      · intro h hempty url hurl
        rcases h url hurl with hlicensed | ⟨hremoves, -⟩
        · exact hlicensed
        · cases op with
          | movie id deleteFiles => exact absurd trivial hremoves
          | episodeFile id => exact absurd trivial hremoves
          | season seriesId n => simp [sendsTo, hempty] at hurl
          | series seriesId => simp [sendsTo, hempty] at hurl
      · intro h url hurl
        refine .inl ?_
        by_cases hempty : target.1 = ""
        · exact h hempty url hurl
        · rw [sendsTo_eq hempty (key_of_resolved hresolve) hurl]
          exact licensed_of_resolved hresolve
  | none =>
      simp only [acts_licensed_iff]
      simp only [licensed_iff_of_unresolved hresolve, implies_true, true_and]

/-! ### Two servers with one identifier -/

/-- Two Radarr servers. -/
def twoRadarrs : Config where
  radarrServers := [⟨"http://radarr:7878", "k1", true⟩, ⟨"http://radarr-4k:7878", "k2", true⟩]

/-- Film 5 is another one on each server; the file of the row belongs to film 9 of the second. -/
def twoFilmLibraries (url : String) : ArrLibrary :=
  if url = "http://radarr:7878" then
    { movies := [{ id := 5, path := "/movies/Alien", filePath := "/movies/Alien/Alien.mkv" }] }
  else
    { movies := [{ id := 5, path := "/4k/Brazil", filePath := "/4k/Brazil/Brazil.mkv" },
        { id := 9, path := "/4k/Alien", filePath := "/4k/Alien/Alien.mkv" }] }

/-- A row from before addresses were recorded, with film 5 and a path on the second server: film 5
of the second server, an unrelated film, is deleted. -/
theorem not_keepsIdentity_twoRadarrs :
    ¬ KeepsIdentity twoRadarrs twoFilmLibraries none "/4k/Alien/Alien.mkv" (movie 5 false) := by
  intro h
  have hrun := Prog.run_play (permits_arrAnswer twoFilmLibraries)
    (run twoRadarrs none "/4k/Alien/Alien.mkv" (movie 5 false))
  have hdelete := (h _ _ hrun).1 (.radarrDelete "http://radarr-4k:7878" "k2" 5 false) (by decide)
    "http://radarr-4k:7878" rfl
  rw [licensed_iff_of_unresolved (by decide)] at hdelete
  revert hdelete
  simp only [CarriedBy]
  decide

end ArrDelete

end Hygie
