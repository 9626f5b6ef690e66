/-
**Which media server a deletion goes to.**

A row belongs to a library and the library to one media server.  The hourly batch looks that server
up and hands its identifier to the pipeline under the key `_server_id`; the two endpoints that
delete at once hand the row over without the key, and the pipeline then takes server `0`.  An
identifier that is not configured is resolved once more, to the legacy server.

Main definitions:

* `Entry`, `Entry.item` — the three ways into the pipeline, and the item each hands over;
* `ownerUrl` — the address of the media server that owns the library of a row;
* `CanSend` — whether a deletion can be sent to the media server at all;
* `Entry.RoutesToOwner` — in every run of the pipeline, every deletion on a media server goes to
  the owner;
* `Entry.Routed` — the condition on the configuration.

Main results:

* `wp_mediaServerStep_goesTo` — where the step sends its deletions;
* `Entry.routesToOwner_iff` — **deletions reach the owner exactly under the condition**.
-/

import Hygie.DeletionPipeline

set_option relaxedAutoImplicit false
set_option autoImplicit false

namespace Hygie

open PyText

/-! ### The ways into the pipeline -/

/-- The callers of the pipeline: the hourly batch, `POST delete-now`, and `POST bulk`. -/
inductive Entry
  | runDeletion
  | deleteNow
  | bulk
  deriving DecidableEq, Repr

/-- `_load_library_server_map`, asked for one library. -/
def loadLibraryServerMap (libraries : List Library) (libraryId : String) : Option String :=
  (libraries.find? (·.id == libraryId)).map fun lib => (truthyText lib.serverId).getD "0"

/-- The item handed to the pipeline: only the batch adds the media server. -/
def Entry.item (libraries : List Library) (row : QueueRow) : Entry → Item
  | runDeletion =>
      { row with serverId := some ((loadLibraryServerMap libraries row.libraryId).getD "0") }
  | deleteNow | bulk => { row with }

/-- The identifier under which the pipeline looks for the media server. -/
def Entry.serverId (libraries : List Library) (row : QueueRow) (entry : Entry) : String :=
  (truthyText (entry.item libraries row).serverId).getD "0"

/-! ### The owner -/

/-- The address of the media server that owns the library of a row.  Without any configured server,
the legacy server is server `0`. -/
def ownerUrl (cfg : Config) (libraries : List Library) (row : QueueRow) : Option String :=
  match loadLibraryServerMap libraries row.libraryId with
  | none => none
  | some serverId =>
      match cfg.mediaServers.find? (·.id == serverId) with
      | some s => some (rstripSlash s.url)
      | none =>
          if cfg.mediaServers = [] ∧ serverId = "0" then some (rstripSlash cfg.embyUrl) else none

/-- The address that a deletion on a media server is sent to. -/
def Query.mediaDeleteUrl : Query → Option String
  | .embyDelete url .. | .plexDelete url .. => some url
  | _ => none

/-- **Deletions reach the owner**: in every run of the pipeline, every deletion on a media server
goes to the one that owns the library of the row. -/
def Entry.RoutesToOwner (cfg : Config) (libraries : List Library) (row : QueueRow)
    (entry : Entry) : Prop :=
  ∀ dryRun qbitAction qbitTag t o,
    Prog.Run (Permits fun _ _ => True)
      (deleteMedia cfg (entry.item libraries row) dryRun qbitAction qbitTag) t o →
    ∀ q ∈ t, ∀ url, q.mediaDeleteUrl = some url → ownerUrl cfg libraries row = some url

/-! ### Where the step sends its deletions -/

/-- A deletion can be sent: the row has an identifier and the server can be contacted; for a
consolidated row, Sonarr can be asked for the series and there is a folder to look for. -/
def CanSend (cfg : Config) (row : QueueRow) (serverId : String) : Prop :=
  row.embyId ≠ "" ∧
    if startsWith row.embyId "sonarr-" then
      (∃ seriesId, truthyId row.sonarrSeriesId = some seriesId ∧
        ∃ srv ∈ getSonarrServers cfg, Addressable (sonarrCreds cfg srv.base srv.apiKey) seriesId) ∧
      (row.seasonNumber.isSome → dirname row.filePath ≠ "") ∧ Contactable (getClient cfg serverId)
    else
      let server := (cfg.mediaServers.find? (·.id == serverId)).getD noServer
      if isPlex cfg server then (buildPlexClient server).isSome = true
      else Contactable (getClient cfg serverId)

/-- The requirement on the queries: deletions on a media server go to addresses in `G`. -/
abbrev MediaGoesTo (G : String → Prop) (q : Query) : Prop :=
  ∀ url, q.mediaDeleteUrl = some url → G url

variable {cfg : Config} {G : String → Prop} {holds : ∀ q : Query, q.Body → Prop}

theorem mediaGoesTo_of_none {q : Query} (h : q.mediaDeleteUrl = none) : MediaGoesTo G q := by
  intro url hurl
  rw [h] at hurl
  cases hurl

theorem mediaGoesTo_of_not_touches (q : Query) (h : q.touches = false) : MediaGoesTo G q :=
  mediaGoesTo_of_none (by cases q <;> simp_all [Query.touches, Query.mediaDeleteUrl])

/-- The client of a configured server is at its address. -/
theorem getClient_of_find {serverId : String} {s : MediaServer}
    (h : cfg.mediaServers.find? (·.id == serverId) = some s) :
    (getClient cfg serverId).1 = rstripSlash s.url := by
  rw [getClient, h]

theorem url_of_buildPlexClient {s : MediaServer} {plex : PlexClient}
    (h : buildPlexClient s = some plex) : plex.url = rstripSlash s.url := by
  simp only [buildPlexClient] at h
  split_ifs at h
  cases h
  rfl

/-- A consolidated deletion is sent to the client of the context's server, once Sonarr can be asked
for the series and there is a folder to look for. -/
theorem wp_deleteConsolidated_goesTo (ctx : DeletionContext) :
    Prog.wp (Permits fun _ _ => True) (MediaGoesTo G) (deleteConsolidated cfg ctx)
        (fun _ => True) (fun _ => True) ↔
      ((∃ seriesId, truthyId ctx.item.sonarrSeriesId = some seriesId ∧
          ∃ srv ∈ getSonarrServers cfg,
            Addressable (sonarrCreds cfg srv.base srv.apiKey) seriesId) →
        (ctx.item.seasonNumber.isSome → dirname ctx.item.filePath ≠ "") →
        Contactable (getClient cfg ctx.serverId) → G (getClient cfg ctx.serverId).1) := by
  rw [wp_deleteConsolidated mediaGoesTo_of_not_touches]
  have hpath : ∀ seriesPath, seriesPath ≠ "" →
      (targetPath ctx.item.toQueueEntry seriesPath ≠ "" ↔
        (ctx.item.seasonNumber.isSome → dirname ctx.item.filePath ≠ "")) := by
    intro seriesPath hne
    rw [targetPath]
    split_ifs with h <;> simp [h, hne]
  constructor
  · rintro h ⟨seriesId, hid, srv, hsrv, haddr⟩ hdir hclient
    -- a series at `/` and an item in the folder looked for are answers the services may give
    have hroot : ("/" : String) ≠ "" := by decide
    exact h seriesId hid srv hsrv haddr ⟨seriesId, "/", 0⟩ trivial hroot
      ((hpath "/" hroot).2 hdir) hclient [⟨"", targetPath ctx.item.toQueueEntry "/"⟩] trivial
      ⟨"", targetPath ctx.item.toQueueEntry "/"⟩ (by simp) _ rfl
  · intro h seriesId hid srv hsrv haddr series _ hne htarget hclient items _ item _ url hurl
    cases hurl
    exact h ⟨seriesId, hid, srv, hsrv, haddr⟩ ((hpath _ hne).1 htarget) hclient

/-- The deletion of a plain row is sent to the client of the context's server. -/
theorem wp_deleteServerItem_goesTo {serverId : String} (hid : serverId ≠ "") (row : QueueRow) :
    Prog.wp (Permits fun _ _ => True) (MediaGoesTo G)
        (deleteServerItem cfg ((cfg.mediaServers.find? (·.id == serverId)).getD noServer) row
          serverId) (fun _ => True) (fun _ => True) ↔
      ((let server := (cfg.mediaServers.find? (·.id == serverId)).getD noServer
        if isPlex cfg server then (buildPlexClient server).isSome = true
        else Contactable (getClient cfg serverId)) → G (getClient cfg serverId).1) := by
  simp only [deleteServerItem, if_pos hid, Prog.wp_ite]
  generalize hserver : (cfg.mediaServers.find? (·.id == serverId)).getD noServer = server
  by_cases hplex : isPlex cfg server = true
  · simp only [hplex, true_implies, not_true_eq_false, false_implies, and_true, if_true]
    cases hbuild : buildPlexClient server with
    | none => simp
    | some plex =>
        have hurl : plex.url = (getClient cfg serverId).1 := by
          cases hfind : cfg.mediaServers.find? (·.id == serverId) with
          | none =>
              simp only [hfind, Option.getD_none] at hserver
              simp [← hserver, buildPlexClient, noServer] at hbuild
          | some s =>
              simp only [hfind, Option.getD_some] at hserver
              rw [url_of_buildPlexClient hbuild, getClient_of_find hfind, hserver]
        simp [wp_plexDeleteItem, MediaGoesTo, Query.mediaDeleteUrl, hurl]
  · simp only [hplex, false_implies, not_false_eq_true, true_implies, true_and, if_false,
      wp_deleteItem, Bool.false_eq_true]
    split_ifs with h
    · simp [h, MediaGoesTo, Query.mediaDeleteUrl]
    · simp [h]

/-- **Where the step sends its deletions**: to the client of the identifier, whenever it can send
any. -/
theorem wp_mediaServerStep_goesTo {ctx : DeletionContext} (hid : ctx.serverId ≠ "")
    (hserver : ctx.server = cfg.mediaServers.find? (·.id == ctx.serverId)) :
    Prog.wp (Permits fun _ _ => True) (MediaGoesTo G) (mediaServerStep cfg ctx)
        (fun _ => True) (fun _ => True) ↔
      (ctx.dryRun = false → CanSend cfg ctx.item.toQueueRow ctx.serverId →
        G (getClient cfg ctx.serverId).1) := by
  have hafter : ∀ ok : Bool, Prog.wp (Permits fun _ _ => True) (MediaGoesTo G)
      (if ok then pure ctx else throw Fault.fatal : Act DeletionContext) (fun _ => True)
        (fun _ => True) ↔ True := fun ok => by cases ok <;> simp
  simp only [mediaServerStep, hserver, Prog.wp_ite, Prog.wp_bind, Prog.wp_pure, hafter]
  rw [wp_deleteConsolidated_goesTo, wp_deleteServerItem_goesTo hid, CanSend]
  by_cases hskip : ctx.dryRun = true ∨ ctx.item.embyId = ""
  · have hskip' : ctx.dryRun = false → ctx.item.embyId = "" := by
      rcases hskip with h | h
      · simp [h]
      · exact fun _ => h
    simp only [hskip, not_true_eq_false, false_implies, implies_true, true_and, true_iff]
    exact fun hrun hsend => absurd (hskip' hrun) hsend.1
  · rw [not_or, Bool.not_eq_true] at hskip
    have hne : ctx.item.embyId ≠ "" := hskip.2
    simp only [hskip, Bool.false_eq_true, or_self, false_implies, not_false_eq_true,
      true_implies, true_and, ne_eq]
    by_cases hsynthetic : startsWith ctx.item.embyId "sonarr-" = true
    · simp only [hsynthetic, true_implies, not_true_eq_false, false_implies, and_true, if_true,
        and_imp, ne_eq]
    · simp only [hsynthetic, false_implies, not_false_eq_true, true_implies, true_and, if_false,
        Bool.false_eq_true]

/-! ### The rest of the pipeline -/

section Rest

variable {P : Query → Prop} (hP : ∀ q : Query, q.mediaDeleteUrl = none → P q)

include hP

omit hP in
theorem mediaDeleteUrl_of_not_touches {q : Query} (h : q.touches = false) :
    q.mediaDeleteUrl = none := by
  cases q <;> simp_all [Query.touches, Query.mediaDeleteUrl]

theorem always_onSonarrTarget (url key : String) (arrServerUrl : Option String)
    (filePath : String) {remove : String → String → Act Bool}
    (hremove : ∀ url key, Prog.Always (Permits holds) P (remove url key)) :
    Prog.Always (Permits holds) P
      (onSonarrTarget cfg url key arrServerUrl filePath remove) := by
  have hread : ∀ q : Query, q.touches = false → P q := fun q h =>
    hP q (mediaDeleteUrl_of_not_touches h)
  have htarget : Prog.Always (Permits holds) P
      (sonarrTarget cfg url key arrServerUrl filePath) := by
    refine .ite (fun _ => ?_) fun _ => .pure _
    cases resolveArrServer cfg (getSonarrServers cfg) arrServerUrl with
    | some target => exact .pure _
    | none => exact .bind (searches_sonarrFindByPathFull hread _).always fun _ => .pure _
  refine .bind htarget fun target => ?_
  cases target with
  | none => exact .pure _
  | some target => exact .ite (fun _ => .pure _) fun _ => hremove _ _

theorem always_deleteFromArr (row : QueueEntry) :
    Prog.Always (Permits holds) P (deleteFromArr cfg row) := by
  have hread : ∀ q : Query, q.touches = false → P q := fun q h =>
    hP q (mediaDeleteUrl_of_not_touches h)
  have hfile : ∀ id url key, Prog.Always (Permits holds) P (sonarrDeleteFileAt id url key) :=
    fun id url key => Prog.always_iff_wp.2 ((wp_sonarrDeleteFileAt hread id url key).2
      ⟨trivial, fun _ => ⟨hP _ rfl, trivial⟩⟩)
  have hseason : ∀ sid n url key,
      Prog.Always (Permits holds) P (sonarrDeleteSeasonAt sid n url key) := fun sid n url key =>
    Prog.always_iff_wp.2 ((wp_sonarrDeleteSeasonAt hread sid n url key).2
      ⟨trivial, fun _ _ => by split_ifs; exact ⟨hP _ rfl, trivial⟩⟩)
  have hseries : ∀ sid url key,
      Prog.Always (Permits holds) P (sonarrDeleteSeriesAt sid url key) := fun sid url key =>
    Prog.always_iff_wp.2 ((wp_sonarrDeleteSeriesAt hread sid url key).2
      ⟨trivial, fun _ _ => by split_ifs; exact ⟨hP _ rfl, trivial⟩⟩)
  by_cases hmovie : row.mediaType = "Movie"
  · exact always_deleteFromArr_movie hread (fun _ _ _ _ => hP _ rfl) hmovie
  rw [deleteFromArr, if_neg hmovie]
  refine .ite (fun _ => ?_) fun _ => ?_
  · cases row.seasonNumber with
    | some n => exact always_onSonarrTarget hP _ _ _ _ (hseason _ _)
    | none => exact always_onSonarrTarget hP _ _ _ _ (hseries _)
  · cases truthyId row.sonarrId with
    | some sid => exact always_onSonarrTarget hP _ _ _ _ (hfile _)
    | none =>
        refine .bind (searches_sonarrFindByPathFull hread _).always fun found => ?_
        cases found with
        | some found => exact always_onSonarrTarget hP _ _ _ _ (hfile _)
        | none => exact .pure _

/-- The steps after the media server's send no deletions to it. -/
theorem always_rest (ctx : DeletionContext) :
    Prog.Always (Permits holds) P
      (execute [arrStep cfg, seerrStep cfg, qbitStep cfg, statsStep] ctx) := by
  have hread : ∀ q : Query, q.touches = false → P q := fun q h =>
    hP q (mediaDeleteUrl_of_not_touches h)
  have hexecute : ∀ {steps : List Step}, (∀ step ∈ steps, ∀ ctx,
      Prog.Always (Permits holds) P (step ctx)) → ∀ ctx,
      Prog.Always (Permits holds) P (execute steps ctx) := by
    intro steps
    induction steps with
    | nil => exact fun _ _ => .pure _
    | cons step steps ih =>
        intro h ctx
        refine .bind (.tryCatch ?_ fun _ => .pure _) fun next => ?_
        · rw [← bind_pure_comp]
          exact .bind (h step (List.mem_cons_self ..) ctx) fun _ => .pure _
        · cases next with
          | some ctx => exact ih (fun s hs => h s (List.mem_cons_of_mem _ hs)) ctx
          | none => exact .pure _
  refine hexecute (fun step hstep ctx => ?_) ctx
  simp only [List.mem_cons, List.not_mem_nil, or_false] at hstep
  rcases hstep with rfl | rfl | rfl | rfl
  · refine .ite (fun _ => .pure _) fun _ => .bind (always_deleteFromArr hP _) fun ok => ?_
    cases ok <;> exact Prog.always_iff_wp.2 (by simp)
  · refine .ite (fun _ => .pure _) fun _ => ?_
    cases truthyId ctx.item.seerrId with
    | none => exact .pure _
    | some id =>
        exact .bind (.ite (fun _ => .tryCatch (.bind (always_send (.seerrDelete _ _ id)
          (hP _ rfl)) fun _ => .pure _) fun _ => .pure _) fun _ => .pure _) fun _ => .pure _
  · exact Prog.always_iff_wp.2 (Prog.wp_mono (fun _ _ => trivial) (fun _ _ => trivial)
      (wp_qbitStep hread fun _ _ _ _ _ => hP _ rfl))
  · exact .ite (fun _ => .pure _) fun _ => .tryCatch (.bind (always_send (.addStats _ _)
      (hP _ rfl)) fun _ => .pure _) fun _ => .pure _

end Rest

/-! ### The whole pipeline -/

/-- **Where a deletion is sent**: the three steps before it only prepare it, and the steps after it
ask other services. -/
theorem wp_deleteMedia_goesTo (item : Item) (qbitAction qbitTag : String) :
    Prog.wp (Permits fun _ _ => True) (MediaGoesTo G)
      (deleteMedia cfg item false qbitAction qbitTag)
        (fun _ => True) (fun _ => True) ↔
      (CanSend cfg item.toQueueRow ((truthyText item.serverId).getD "0") →
        G (getClient cfg ((truthyText item.serverId).getD "0")).1) := by
  have hread : ∀ q : Query, q.touches = false → MediaGoesTo G q := mediaGoesTo_of_not_touches
  have hsend : ∀ ctx : DeletionContext, Prog.wp (Permits fun _ _ => True) (MediaGoesTo G)
      (execute [serverResolveStep cfg, mediaServerStep cfg, arrStep cfg, seerrStep cfg,
        qbitStep cfg, statsStep] ctx) (fun _ => True) (fun _ => True) ↔
      (ctx.dryRun = false → CanSend cfg ctx.item.toQueueRow ctx.serverId →
        G (getClient cfg ctx.serverId).1) := by
    intro ctx
    have hrest : ∀ ctx', Prog.wp (Permits fun _ _ => True) (MediaGoesTo G)
        (execute [arrStep cfg, seerrStep cfg, qbitStep cfg, statsStep] ctx') (fun _ => True)
          (fun _ => True) ↔ True := fun ctx' =>
      iff_true_intro (Prog.always_iff_wp.1 (always_rest (fun _ h => mediaGoesTo_of_none h) ctx'))
    rw [wp_execute_cons, serverResolveStep, Prog.wp_pure, wp_execute_cons]
    simp only [hrest]
    exact wp_mediaServerStep_goesTo (truthyText_getD_ne_empty _) rfl
  rw [deleteMedia, if_neg Bool.false_ne_true, defaultPipeline]
  refine wp_execute_preparatory (preparatory_sizeLookupStep hread) fun ctx₁ h₁ => ?_
  refine wp_execute_preparatory (preparatory_torrentHashStep hread) fun ctx₂ h₂ => ?_
  refine wp_execute_preparatory (preparatory_discordNotifyStep hread) fun ctx₃ h₃ => ?_
  have hitem : ctx₃.item = item := h₃.1.trans (h₂.1.trans h₁.1)
  have hdry : ctx₃.dryRun = false := h₃.2.trans (h₂.2.trans h₁.2)
  rw [hsend ctx₃, DeletionContext.serverId, hitem, hdry]
  exact forall_prop_of_true rfl

/-- The condition under which deletions reach the owner: the batch needs a library that exists and
whose server is configured; at the two endpoints the owner has to be server `0`. -/
def Entry.Routed (cfg : Config) (libraries : List Library) (row : QueueRow) (entry : Entry) :
    Prop :=
  CanSend cfg row (entry.serverId libraries row) →
    match entry with
    | runDeletion => (ownerUrl cfg libraries row).isSome
    | deleteNow | bulk => ownerUrl cfg libraries row = some (getClient cfg "0").1

/-- The batch asks the owner, when there is one. -/
theorem ownerUrl_runDeletion {libraries : List Library} {row : QueueRow} {url : String}
    (h : ownerUrl cfg libraries row = some url) :
    (getClient cfg (Entry.runDeletion.serverId libraries row)).1 = url := by
  rw [ownerUrl] at h
  cases hmap : loadLibraryServerMap libraries row.libraryId with
  | none => simp [hmap] at h
  | some serverId =>
      have hne : serverId ≠ "" := by
        obtain ⟨lib, -, rfl⟩ := Option.map_eq_some_iff.1 hmap
        exact truthyText_getD_ne_empty _
      have hid : Entry.runDeletion.serverId libraries row = serverId := by
        rw [Entry.serverId, Entry.item, hmap, Option.getD_some, truthyText_some hne,
          Option.getD_some]
      simp only [hmap] at h
      rw [hid]
      cases hfind : cfg.mediaServers.find? (·.id == serverId) with
      | some s =>
          simp only [hfind, Option.some.injEq] at h
          rw [getClient_of_find hfind, h]
      | none =>
          simp only [hfind] at h
          split_ifs at h
          simp only [getClient, hfind]
          exact Option.some.inj h

/-- **Deletions reach the owner exactly under the condition.** -/
theorem Entry.routesToOwner_iff (cfg : Config) (libraries : List Library) (row : QueueRow)
    (entry : Entry) :
    entry.RoutesToOwner cfg libraries row ↔ entry.Routed cfg libraries row := by
  have hwp : ∀ qbitAction qbitTag,
      Prog.Always (Permits fun _ _ => True) (MediaGoesTo (ownerUrl cfg libraries row = some ·))
        (deleteMedia cfg (entry.item libraries row) false qbitAction qbitTag) ↔
      (CanSend cfg row (entry.serverId libraries row) →
        ownerUrl cfg libraries row = some (getClient cfg (entry.serverId libraries row)).1) := by
    intro qbitAction qbitTag
    rw [Prog.always_iff_wp, wp_deleteMedia_goesTo, ← Entry.serverId]
    cases entry <;> rfl
  have hrouted : entry.Routed cfg libraries row ↔ (CanSend cfg row (entry.serverId libraries row) →
      ownerUrl cfg libraries row = some (getClient cfg (entry.serverId libraries row)).1) := by
    refine imp_congr_right fun _ => ?_
    cases entry with
    | deleteNow | bulk => rfl
    | runDeletion =>
        rw [Option.isSome_iff_exists]
        constructor
        · rintro ⟨url, hurl⟩
          rw [hurl, ownerUrl_runDeletion hurl]
        · exact fun h => ⟨_, h⟩
  rw [hrouted, ← hwp "" ""]
  constructor
  · intro h t o hrun
    exact h false "" "" t o hrun
  · intro h dryRun qbitAction qbitTag t o hrun
    cases dryRun with
    | true =>
        rw [deleteMedia, if_pos rfl] at hrun
        exact Prog.Always.pure _ t o hrun
    | false => exact (hwp qbitAction qbitTag).2 ((hwp "" "").1 h) t o hrun

/-! ### Two media servers -/

/-- Two media servers. -/
def twoEmbys : Config where
  mediaServers := [⟨"0", "http://emby:8096", "k0", "emby"⟩,
    ⟨"1", "http://jellyfin:8096", "k1", "jellyfin"⟩]

/-- A film of a library on the second server. -/
def filmOnSecond : QueueRow where
  embyId := "77"
  title := "Alien"
  mediaType := "Movie"
  libraryId := "movies"
  libraryName := "Movies"
  filePath := "/movies/Alien/Alien.mkv"
  detectedAt := ""
  deleteAt := ""
  id := 1

/-- A film of the second server, deleted at once: item `77` of the first server is deleted. -/
theorem not_routesToOwner_twoEmbys :
    ¬ Entry.deleteNow.RoutesToOwner twoEmbys [⟨"movies", some "1"⟩] filmOnSecond := by
  intro h
  have hpermits : ∀ q, Permits (fun _ _ => True) q (acknowledge q) := permits_acknowledge
  have hrun := Prog.run_play hpermits
    (deleteMedia twoEmbys (Entry.deleteNow.item [⟨"movies", some "1"⟩] filmOnSecond) false "" "")
  have howner := h _ _ _ _ _ hrun (.embyDelete "http://emby:8096" "k0" "77") (by decide) _ rfl
  revert howner
  decide

end Hygie
