/-
**The banners on the posters of Plex.**

A title that waits for its deletion gets a banner on its poster.  When it has left the queue, the
original comes back by a refresh of its metadata.  What carries a banner is kept in the table
`plex_overlays`, so that a later run, or another process, knows what to restore.

A run restores the keys that are recorded and not pending any more, and then forgets all of them:
also those whose refresh has been refused or has raised an exception, which is caught one level
below.  Such a poster keeps its banner.

Main definitions:

* `PlexState` — the table, and the posters that carry a banner;
* `OverlaySync.run` — one run, with what the servers answer;
* `NeverForgotten`, `RestoresAccepted` — the two sides of the theorem.

Main results:

* `mem_syncServer` — what a run leaves of a server: the pending keys are recorded, and no others;
* `neverForgotten_iff` — **every banner stays recorded exactly if every refresh of a poster with a
  banner succeeds**.
-/

import Hygie.IsoDates
import Hygie.MediaServers

set_option relaxedAutoImplicit false
set_option autoImplicit false

namespace Hygie

namespace PlexOverlay

open PyText

/-- The table `plex_overlays`, with the server and the rating key of its rows, and the posters that
carry a banner: a banner has been uploaded, and no refresh has succeeded since. -/
structure PlexState where
  plexOverlays : List (String × String)
  overlaid : List (String × String)

/-- What a call to a server comes to. -/
inductive CallOutcome
  | accepted
  | refused
  | raised
deriving DecidableEq

/-- A media server, and whether it is enabled. -/
structure OverlayServer extends MediaServer where
  enabled : Bool := true

/-- What a run finds, and what it is answered: an image for the banner of the i-th pending title of
a server, the image with the banner on it, and the outcomes of the calls. -/
structure OverlaySync (Image : Type) where
  overlayEnabled : Bool
  servers : List OverlayServer
  libraries : List Library
  queue : List QueueRow
  uiLanguage : String
  today : ℕ
  guardedImageGet : String → ℕ → String → Option Image
  overlayPoster : Image → ℕ → String → Option Image
  uploadPoster : String → ℕ → String → Image → CallOutcome
  restorePoster : String → String → CallOutcome

/-! ### The table -/

/-- `_get_overlay_keys`. -/
def getOverlayKeys (w : PlexState) (serverId : String) : List String :=
  (w.plexOverlays.filter fun row => row.1 = serverId).map Prod.snd

/-- `_add_overlay_keys`: `INSERT OR IGNORE` for every key. -/
def addOverlayKeys (serverId : String) (ratingKeys : List String) (w : PlexState) : PlexState :=
  ratingKeys.foldl (fun w key =>
    if (serverId, key) ∈ w.plexOverlays then w
    else { w with plexOverlays := w.plexOverlays ++ [(serverId, key)] }) w

/-- `_remove_overlay_keys`: `DELETE` for every key. -/
def removeOverlayKeys (serverId : String) (ratingKeys : List String) (w : PlexState) : PlexState :=
  ratingKeys.foldl (fun w key =>
    { w with plexOverlays := w.plexOverlays.filter fun row => row ≠ (serverId, key) }) w

/-! ### A run -/

section Run

variable {Image : Type} (sync : OverlaySync Image)

/-- `str(item["plex_rating_key"] or item["emby_id"])`. -/
def overlayKey (row : QueueRow) : String :=
  if row.plexRatingKey = "" then row.embyId else row.plexRatingKey

/-- `_restore_plex_posters`: an outcome that is no success is passed over. -/
def restorePlexPosters (serverId : String) (ratingKeys : List String) (w : PlexState) : PlexState :=
  ratingKeys.foldl (fun w key =>
    if sync.restorePoster serverId key = .accepted then
      { w with overlaid := w.overlaid.filter fun poster => poster ≠ (serverId, key) }
    else w) w

/-- `_one` of `_apply_plex_overlays`, as the image that is uploaded; nothing stands for a return
before the upload, and for an exception. -/
def bannerFor (serverId : String) (i : ℕ) (row : QueueRow) : Option Image := do
  let days ← daysLeft sync.today row.deleteAt
  let original ←
    if startsWith row.posterUrl "http" then sync.guardedImageGet serverId i row.posterUrl
    else none
  sync.overlayPoster original days sync.uiLanguage

/-- The upload for the i-th title succeeds. -/
def uploads (serverId : String) (i : ℕ) (row : QueueRow) : Bool :=
  (bannerFor sync serverId i row).any fun image =>
    sync.uploadPoster serverId i (overlayKey row) image = .accepted

/-- `_apply_plex_overlays`. -/
def applyPlexOverlays (serverId : String) (items : List QueueRow) (w : PlexState) : PlexState :=
  items.zipIdx.foldl (fun w item =>
    if uploads sync serverId item.2 item.1 then
      { w with overlaid := (serverId, overlayKey item.1) :: w.overlaid }
    else w) w

/-- The enabled Plex servers. -/
def plexServers : List OverlayServer :=
  sync.servers.filter fun server => server.type = "plex" && server.enabled

/-- The libraries of these servers, as `lib_to_server`. -/
def plexLibraries : List Library :=
  sync.libraries.filter fun library =>
    library.serverId.any fun serverId => serverId ∈ (plexServers sync).map (·.id)

/-- `items_by_server[server_id]`: the pending rows with a rating key, by the server of their
library. -/
def itemsOf (serverId : String) : List QueueRow :=
  sync.queue.filter fun row =>
    row.status = .pending && row.plexRatingKey ≠ "" &&
      (((plexLibraries sync).find? fun library => library.id = row.libraryId).bind
        Library.serverId) = some serverId

/-- `current_keys`. -/
def currentKeys (serverId : String) : List String := (itemsOf sync serverId).map overlayKey

/-- What a run does for one server. -/
def syncServer (w : PlexState) (server : OverlayServer) : PlexState :=
  match buildPlexClient server.toMediaServer with
  | none => w
  | some _ =>
      let toRestore :=
        (getOverlayKeys w server.id).filter fun key => key ∉ currentKeys sync server.id
      let w :=
        if toRestore = [] then w
        else
          removeOverlayKeys server.id toRestore (restorePlexPosters sync server.id toRestore w)
      let items := itemsOf sync server.id
      if items = [] then w
      else
        addOverlayKeys server.id (currentKeys sync server.id)
          (applyPlexOverlays sync server.id items w)

/-- The run gets to the servers. -/
def Active : Prop :=
  sync.overlayEnabled = true ∧ plexServers sync ≠ [] ∧ plexLibraries sync ≠ []

instance : Decidable (Active sync) := inferInstanceAs (Decidable (_ ∧ _ ∧ _))

/-- `sync_plex_overlays`. -/
def OverlaySync.run (w : PlexState) : PlexState :=
  if Active sync then (plexServers sync).foldl (syncServer sync) w else w

/-- Runs one after the other. -/
def runs (w : PlexState) (syncs : List (OverlaySync Image)) : PlexState :=
  syncs.foldl (fun w sync => sync.run w) w

end Run

/-! ### The loops -/

section Loops

variable {Image : Type} {sync : OverlaySync Image} {serverId : String} {keys : List String}
  {w : PlexState} {p : String × String}

theorem mem_getOverlayKeys {key : String} :
    key ∈ getOverlayKeys w serverId ↔ (serverId, key) ∈ w.plexOverlays := by
  simp [getOverlayKeys]

@[simp] theorem overlaid_addOverlayKeys :
    (addOverlayKeys serverId keys w).overlaid = w.overlaid := by
  unfold addOverlayKeys
  induction keys generalizing w with
  | nil => rfl
  | cons key keys ih =>
      rw [List.foldl_cons, ih]
      split <;> rfl

@[simp] theorem mem_addOverlayKeys :
    p ∈ (addOverlayKeys serverId keys w).plexOverlays ↔
      p ∈ w.plexOverlays ∨ (p.1 = serverId ∧ p.2 ∈ keys) := by
  unfold addOverlayKeys
  induction keys generalizing w with
  | nil => simp
  | cons key keys ih =>
      rw [List.foldl_cons, ih]
      obtain ⟨server, k⟩ := p
      split
      next hmem =>
        simp only [List.mem_cons]
        constructor
        · rintro (h | h)
          · exact .inl h
          · exact .inr ⟨h.1, .inr h.2⟩
        · rintro (h | ⟨rfl, rfl | h⟩)
          · exact .inl h
          · exact .inl hmem
          · exact .inr ⟨rfl, h⟩
      next =>
        simp only [List.mem_append, Prod.mk.injEq, List.mem_cons]
        tauto

@[simp] theorem overlaid_removeOverlayKeys :
    (removeOverlayKeys serverId keys w).overlaid = w.overlaid := by
  unfold removeOverlayKeys
  induction keys generalizing w with
  | nil => rfl
  | cons key keys ih => exact ih

@[simp] theorem mem_removeOverlayKeys :
    p ∈ (removeOverlayKeys serverId keys w).plexOverlays ↔
      p ∈ w.plexOverlays ∧ ¬(p.1 = serverId ∧ p.2 ∈ keys) := by
  unfold removeOverlayKeys
  induction keys generalizing w with
  | nil => simp
  | cons key keys ih =>
      obtain ⟨server, k⟩ := p
      rw [List.foldl_cons, ih]
      simp only [List.mem_filter, decide_eq_true_eq, ne_eq, Prod.mk.injEq, List.mem_cons]
      tauto

@[simp] theorem plexOverlays_restorePlexPosters :
    (restorePlexPosters sync serverId keys w).plexOverlays = w.plexOverlays := by
  unfold restorePlexPosters
  induction keys generalizing w with
  | nil => rfl
  | cons key keys ih =>
      rw [List.foldl_cons, ih]
      split <;> rfl

@[simp] theorem mem_restorePlexPosters :
    p ∈ (restorePlexPosters sync serverId keys w).overlaid ↔
      p ∈ w.overlaid ∧
        ¬(p.1 = serverId ∧ p.2 ∈ keys ∧ sync.restorePoster serverId p.2 = .accepted) := by
  unfold restorePlexPosters
  induction keys generalizing w with
  | nil => simp
  | cons key keys ih =>
      obtain ⟨server, k⟩ := p
      rw [List.foldl_cons, ih]
      split
      next hok =>
        simp only [List.mem_filter, decide_eq_true_eq, ne_eq, Prod.mk.injEq, List.mem_cons]
        constructor
        · rintro ⟨⟨hmem, hne⟩, hnot⟩
          exact ⟨hmem, fun ⟨h1, h2, h3⟩ => h2.elim (fun h => hne ⟨h1, h⟩) fun h => hnot ⟨h1, h, h3⟩⟩
        · rintro ⟨hmem, hnot⟩
          refine ⟨⟨hmem, ?_⟩, fun ⟨h1, h2, h3⟩ => hnot ⟨h1, .inr h2, h3⟩⟩
          rintro ⟨rfl, rfl⟩
          exact hnot ⟨rfl, .inl rfl, hok⟩
      next hnot =>
        simp only [List.mem_cons]
        constructor
        · rintro ⟨hmem, h⟩
          refine ⟨hmem, ?_⟩
          rintro ⟨rfl, rfl | hk, hok⟩
          · exact hnot hok
          · exact h ⟨rfl, hk, hok⟩
        · rintro ⟨hmem, h⟩
          exact ⟨hmem, fun ⟨h1, h2, h3⟩ => h ⟨h1, .inr h2, h3⟩⟩

@[simp] theorem plexOverlays_applyPlexOverlays (items : List QueueRow) :
    (applyPlexOverlays sync serverId items w).plexOverlays = w.plexOverlays := by
  unfold applyPlexOverlays
  induction items.zipIdx generalizing w with
  | nil => rfl
  | cons item rest ih =>
      rw [List.foldl_cons, ih]
      split <;> rfl

/-- A banner that is not of a title in the list was there before. -/
theorem mem_applyPlexOverlays_of_notMem {items : List QueueRow}
    (hnot : ¬(p.1 = serverId ∧ p.2 ∈ items.map overlayKey)) :
    p ∈ (applyPlexOverlays sync serverId items w).overlaid ↔ p ∈ w.overlaid := by
  have hidx : ∀ item ∈ items.zipIdx, p ≠ (serverId, overlayKey item.1) := by
    rintro item hitem rfl
    have hmem : item.1 ∈ items := (List.mem_zipIdx' hitem).2 ▸ List.getElem_mem _
    exact hnot ⟨rfl, List.mem_map_of_mem hmem⟩
  unfold applyPlexOverlays
  generalize items.zipIdx = indexed at hidx
  induction indexed generalizing w with
  | nil => rfl
  | cons item rest ih =>
      rw [List.foldl_cons]
      refine (ih fun item' hitem => hidx item' (List.mem_cons_of_mem _ hitem)).trans ?_
      split
      next => simp [hidx item List.mem_cons_self]
      next => rfl

end Loops

/-! ### What a run does for a server -/

section Server

variable {Image : Type} {sync : OverlaySync Image} {w : PlexState} {server : OverlayServer}
  {id key : String}

/-- The run restores the poster: the key is recorded and no pending title has it. -/
def Restores (sync : OverlaySync Image) (w : PlexState) (id key : String) : Prop :=
  (id, key) ∈ w.plexOverlays ∧ key ∉ currentKeys sync id

/-- The servers of a list that have a client. -/
def reachedIds (servers : List OverlayServer) : List String :=
  (servers.filter fun server => (buildPlexClient server.toMediaServer).isSome).map (·.id)

theorem currentKeys_eq_nil (h : itemsOf sync id = []) : currentKeys sync id = [] := by
  rw [currentKeys, h, List.map_nil]

/-- **What a run leaves of a server**: exactly the pending keys are recorded, and a poster of
another key has a banner if it had one and has not been restored. -/
theorem mem_syncServer (hclient : (buildPlexClient server.toMediaServer).isSome) :
    ((server.id, key) ∈ (syncServer sync w server).plexOverlays ↔
        key ∈ currentKeys sync server.id) ∧
      (key ∉ currentKeys sync server.id →
        ((server.id, key) ∈ (syncServer sync w server).overlaid ↔
          (server.id, key) ∈ w.overlaid ∧
            ¬(Restores sync w server.id key ∧
              sync.restorePoster server.id key = .accepted))) := by
  obtain ⟨client, hclient⟩ := Option.isSome_iff_exists.1 hclient
  unfold syncServer Restores
  rw [hclient]
  generalize hrestore : (getOverlayKeys w server.id).filter
    (fun key => key ∉ currentKeys sync server.id) = toRestore
  have hmem : ∀ k, k ∈ toRestore ↔
      (server.id, k) ∈ w.plexOverlays ∧ k ∉ currentKeys sync server.id := by
    intro k
    rw [← hrestore, List.mem_filter, mem_getOverlayKeys, decide_eq_true_eq]
  -- Nothing to restore is a case of the general one.
  have hafter : (if toRestore = [] then w
      else removeOverlayKeys server.id toRestore
        (restorePlexPosters sync server.id toRestore w)) =
      removeOverlayKeys server.id toRestore
        (restorePlexPosters sync server.id toRestore w) := by
    split
    next hnil => rw [hnil]; rfl
    next => rfl
  simp only [hafter]
  split
  next hnil =>
    simp [currentKeys_eq_nil hnil, hmem]
  next =>
    constructor
    · simp [hmem]
      tauto
    · intro hnot
      rw [overlaid_addOverlayKeys, mem_applyPlexOverlays_of_notMem fun h => hnot h.2]
      simp [hmem]

/-- Of the other servers nothing changes. -/
theorem mem_syncServer_of_ne (hid : id ≠ server.id) :
    ((id, key) ∈ (syncServer sync w server).plexOverlays ↔ (id, key) ∈ w.plexOverlays) ∧
      ((id, key) ∈ (syncServer sync w server).overlaid ↔ (id, key) ∈ w.overlaid) := by
  unfold syncServer
  cases buildPlexClient server.toMediaServer with
  | none => exact ⟨Iff.rfl, Iff.rfl⟩
  | some client =>
      have happlied : ∀ (items : List QueueRow) (w' : PlexState),
          (id, key) ∈ (applyPlexOverlays sync server.id items w').overlaid ↔
            (id, key) ∈ w'.overlaid :=
        fun items w' => mem_applyPlexOverlays_of_notMem fun h => hid h.1
      dsimp only
      split <;> split <;> simp [hid, happlied]

theorem syncServer_of_none (hclient : buildPlexClient server.toMediaServer = none) :
    syncServer sync w server = w := by
  rw [syncServer, hclient]

theorem mem_foldl_syncServer_of_notMem {servers : List OverlayServer}
    (hid : id ∉ reachedIds servers) :
    ((id, key) ∈ (servers.foldl (syncServer sync) w).plexOverlays ↔ (id, key) ∈ w.plexOverlays) ∧
      ((id, key) ∈ (servers.foldl (syncServer sync) w).overlaid ↔ (id, key) ∈ w.overlaid) := by
  induction servers generalizing w with
  | nil => exact ⟨Iff.rfl, Iff.rfl⟩
  | cons server servers ih =>
      rw [List.foldl_cons]
      cases hclient : buildPlexClient server.toMediaServer with
      | none =>
          rw [syncServer_of_none hclient]
          refine ih fun hmem => hid ?_
          rwa [reachedIds, List.filter_cons_of_neg (by simp [hclient])]
      | some client =>
          rw [reachedIds, List.filter_cons_of_pos (by simp [hclient]), List.map_cons,
            List.mem_cons, not_or] at hid
          obtain ⟨hrows, hbanners⟩ := @ih (syncServer sync w server) hid.2
          obtain ⟨hrows', hbanners'⟩ := @mem_syncServer_of_ne _ sync w server id key hid.1
          exact ⟨hrows.trans hrows', hbanners.trans hbanners'⟩

/-- A server that is reached ends as after its first turn: the second one finds nothing to do. -/
theorem mem_foldl_syncServer {servers : List OverlayServer} (hid : id ∈ reachedIds servers) :
    ((id, key) ∈ (servers.foldl (syncServer sync) w).plexOverlays ↔ key ∈ currentKeys sync id) ∧
      (key ∉ currentKeys sync id →
        ((id, key) ∈ (servers.foldl (syncServer sync) w).overlaid ↔
          (id, key) ∈ w.overlaid ∧
            ¬(Restores sync w id key ∧ sync.restorePoster id key = .accepted))) := by
  induction servers generalizing w with
  | nil => exact absurd hid List.not_mem_nil
  | cons server servers ih =>
      rw [List.foldl_cons]
      cases hclient : buildPlexClient server.toMediaServer with
      | none =>
          rw [syncServer_of_none hclient]
          refine ih ?_
          rwa [reachedIds, List.filter_cons_of_neg (by simp [hclient])] at hid
      | some client =>
          rw [reachedIds, List.filter_cons_of_pos (by simp [hclient]), List.map_cons,
            List.mem_cons] at hid
          have hsome : (buildPlexClient server.toMediaServer).isSome := by rw [hclient]; rfl
          by_cases hthis : id = server.id
          · subst hthis
            obtain ⟨hrows, hbanners⟩ := @mem_syncServer _ sync w server key hsome
            by_cases hrest : server.id ∈ reachedIds servers
            · obtain ⟨hrows', hbanners'⟩ := @ih (syncServer sync w server) hrest
              refine ⟨hrows', fun hnot => (hbanners' hnot).trans ?_⟩
              have hgone : ¬Restores sync (syncServer sync w server) server.id key :=
                fun h => hnot (hrows.1 h.1)
              rw [← hbanners hnot]
              exact and_iff_left fun h => hgone h.1
            · obtain ⟨hrows', hbanners'⟩ := mem_foldl_syncServer_of_notMem hrest
              exact ⟨hrows'.trans hrows, fun hnot => hbanners'.trans (hbanners hnot)⟩
          · obtain ⟨hrows, hbanners⟩ := @mem_syncServer_of_ne _ sync w server id key hthis
            obtain ⟨hrows', hbanners'⟩ := @ih (syncServer sync w server) (hid.resolve_left hthis)
            refine ⟨hrows', fun hnot => (hbanners' hnot).trans ?_⟩
            simp only [Restores, hrows, hbanners]

end Server

/-! ### Runs -/

section Runs

variable {Image : Type}

/-- Every poster with a banner is recorded. -/
def PlexState.Recorded (w : PlexState) : Prop := ∀ p ∈ w.overlaid, p ∈ w.plexOverlays

/-- The run makes a refresh of the poster: it gets to the server, the key is recorded and no
pending title has it. -/
def MakesRestore (sync : OverlaySync Image) (w : PlexState) (id key : String) : Prop :=
  Active sync ∧ id ∈ reachedIds (plexServers sync) ∧ Restores sync w id key

/-- Every refresh of a poster with a banner succeeds. -/
def RestoresAccepted (sync : OverlaySync Image) (w : PlexState) : Prop :=
  ∀ id key, MakesRestore sync w id key → (id, key) ∈ w.overlaid →
    sync.restorePoster id key = .accepted

/-- **No banner is forgotten**, in any state between the runs. -/
def NeverForgotten (w : PlexState) (syncs : List (OverlaySync Image)) : Prop :=
  ∀ earlier later, syncs = earlier ++ later → (runs w earlier).Recorded

/-- **What a run leaves recorded**: with every banner recorded before, every banner is recorded
afterwards exactly if every refresh of a poster with a banner succeeds. -/
theorem recorded_run_iff {sync : OverlaySync Image} {w : PlexState} (hw : w.Recorded) :
    (sync.run w).Recorded ↔ RestoresAccepted sync w := by
  unfold OverlaySync.run
  by_cases hactive : Active sync
  · rw [if_pos hactive]
    constructor
    · rintro h id key ⟨-, hid, hrestores⟩ hbanner
      obtain ⟨hrows, hbanners⟩ := @mem_foldl_syncServer _ sync w id key (plexServers sync) hid
      by_contra hnot
      have hstill := (hbanners hrestores.2).2 ⟨hbanner, fun h => hnot h.2⟩
      exact hrestores.2 (hrows.1 (h _ hstill))
    · rintro h ⟨id, key⟩ hbanner
      by_cases hid : id ∈ reachedIds (plexServers sync)
      · obtain ⟨hrows, hbanners⟩ := @mem_foldl_syncServer _ sync w id key (plexServers sync) hid
        refine hrows.2 ?_
        by_contra hnot
        obtain ⟨hbefore, hfailed⟩ := (hbanners hnot).1 hbanner
        have hrestores : Restores sync w id key := ⟨hw _ hbefore, hnot⟩
        exact hfailed ⟨hrestores, h id key ⟨hactive, hid, hrestores⟩ hbefore⟩
      · obtain ⟨hrows, hbanners⟩ :=
          @mem_foldl_syncServer_of_notMem _ sync w id key (plexServers sync) hid
        exact hrows.2 (hw _ (hbanners.1 hbanner))
  · rw [if_neg hactive]
    exact ⟨fun _ _ _ h => absurd h.1 hactive, fun _ => hw⟩

/-- **Exactly when no banner is forgotten**: every refresh of a poster with a banner succeeds, in
every run. -/
theorem neverForgotten_iff (table : List (String × String)) (syncs : List (OverlaySync Image)) :
    NeverForgotten ⟨table, []⟩ syncs ↔
      ∀ earlier sync later, syncs = earlier ++ sync :: later →
        RestoresAccepted sync (runs ⟨table, []⟩ earlier) := by
  constructor
  · intro h earlier sync later hsplit
    have hbefore := h earlier _ hsplit
    have hafter := h (earlier ++ [sync]) later (by rw [hsplit, List.append_assoc]; rfl)
    rw [runs, List.foldl_append] at hafter
    exact (recorded_run_iff hbefore).1 hafter
  · intro h earlier
    induction earlier using List.reverseRecOn with
    | nil => exact fun _ _ p hp => absurd hp List.not_mem_nil
    | append_singleton earlier sync ih =>
        intro later hsplit
        have hsplit' : syncs = earlier ++ sync :: later := by
          rw [hsplit, List.append_assoc]
          rfl
        rw [runs, List.foldl_append]
        exact (recorded_run_iff (ih _ hsplit')).2 (h earlier sync later hsplit')

end Runs

/-! ### A banner that is forgotten -/

/-- The server with its library. -/
def plexSync (queue : List QueueRow) (restored : CallOutcome) : OverlaySync Unit where
  overlayEnabled := true
  servers := [{ id := "p1", url := "http://plex:32400", apiKey := "token", type := "plex" }]
  libraries := [⟨"l1", some "p1"⟩]
  queue := queue
  uiLanguage := "fr"
  today := 739000
  guardedImageGet := fun _ _ _ => some ()
  overlayPoster := fun _ _ _ => some ()
  uploadPoster := fun _ _ _ _ => .accepted
  restorePoster := fun _ _ => restored

/-- A film that waits for its deletion. -/
def pendingFilm : QueueRow where
  id := 1
  embyId := "7"
  title := "Film"
  mediaType := "Movie"
  libraryId := "l1"
  libraryName := "Films"
  filePath := "/films/film.mkv"
  detectedAt := "2026-01-01T00:00:00+00:00"
  deleteAt := "2026-02-01T00:00:00+00:00"
  posterUrl := "https://image.tmdb.org/poster.jpg"
  plexRatingKey := "7"

/-- The film gets its banner and leaves the queue, and the server does not answer when its poster
is to be restored: the banner stays, and nobody knows of it. -/
theorem not_neverForgotten_refused :
    ¬ ∀ (table : List (String × String)) (syncs : List (OverlaySync Unit)),
      NeverForgotten ⟨table, []⟩ syncs := by
  intro hall
  have h := hall [] [plexSync [pendingFilm] .accepted, plexSync [] .raised] _ []
    (List.append_nil _).symm
  exact absurd (h ("p1", "7") (by decide +kernel)) (by decide +kernel)

end PlexOverlay

end Hygie
