/-
**The collection of what leaves soon, on Emby and Jellyfin.**

The titles that wait for their deletion are kept in a collection of the media server, and each gets
a banner on its poster.  The banner is composed onto the poster of the queue row or, where the row
has none, onto the image that the server shows.  When a title leaves the collection, its poster is
fetched from the address in its queue row and uploaded again; a row that has been removed has no
address any more, and then the banner stays.

The queue is what a run finds; between two runs it may have changed in any way.  The server answers
every request: it finds the collection that is there, it knows its own items, and an upload for an
item that is not there is refused.

Main definitions:

* `Poster`, `EmbyState` — what an item shows, and the state of the server and of the process;
* `CollectionSync.run` — one run of `sync_emby_collection`;
* `CollectionEvent`, `runEvents` — runs, and what may happen between them;
* `KeepsPosters` — the law, `RestoresPosters` — the condition.

Main results:

* `keepsPosters_iff` — when the law holds of a run;
* `keepsPosters_run_iff` — **exactly the sequences of runs along which it holds**;
* `tracked_run` — with unchanged settings a title with a banner is in the collection;
* `not_keepsPosters_ignored` — a title that is ignored keeps its banner.
-/

import Hygie.PlexOverlays

set_option relaxedAutoImplicit false
set_option autoImplicit false

namespace Hygie

namespace EmbyOverlay

open PyText PlexOverlay

/-! ### The server -/

/-- An image: the one that the item came with, the one at an address, or one with a banner on it. -/
inductive Poster
  | original
  | picture (url : String)
  | banner (base : Poster) (days : ℕ)
  deriving DecidableEq

/-- The items of the server, its collections by their names in lower case, the primary images, and
the cache `_overlay_cache` of the process.  `addresses` are the posters that the rows of the server
have named, and `overlaid` the items that have got a banner while their row named one. -/
structure EmbyState where
  items : List String
  collections : String → Option (List String)
  poster : String → Option Poster
  overlayCache : String → Option ℕ
  addresses : List (String × String)
  overlaid : List String

/-- The types of server that have a collection. -/
def collectionTypes : List String := ["emby", "jellyfin", ""]

/-- The server that a run is for: the first enabled one, or the legacy server. -/
def syncServerId (servers : List OverlayServer) (mediaServerType : String) : Option String :=
  match servers.filter fun s => s.enabled && s.type ∈ collectionTypes with
  | s :: _ => some s.id
  | [] =>
      match servers with
      | s :: _ => if s.type ∈ collectionTypes then some "0" else none
      | [] => if mediaServerType ∈ collectionTypes then some "0" else none

/-- What a run finds: the settings, the queue and the date, whether an address yields an image and
whether a banner can be drawn.  The column `emby_id` is `UNIQUE`.  A run that gets to a server gets
to the server `serverId`. -/
structure CollectionSync (serverId : String) where
  cfg : Config
  servers : List OverlayServer
  mediaServerType : String
  collectionName : String
  overlayEnabled : Bool
  /-- `(now_utc() + timedelta(days=days)).isoformat()`; nothing where it raises. -/
  cutoff : Option String
  today : ℕ
  libraries : List Library
  queue : List QueueRow
  imageAt : String → Bool
  renders : String → Bool
  unique : (queue.map fun row => row.embyId).Nodup
  target : ∀ id, syncServerId servers mediaServerType = some id → id = serverId

variable {serverId : String} (sync : CollectionSync serverId) (w : EmbyState)

/-! ### What a run reads -/

/-- The library of the row is one of the server. -/
def onServer (row : QueueRow) : Bool :=
  sync.libraries.any fun library => library.id = row.libraryId && library.serverId = some serverId

/-- `get_pending_before_for_server`. -/
def wanted : List QueueRow :=
  match sync.cutoff with
  | none => []
  | some cutoff =>
      sync.queue.filter fun row =>
        row.status = .pending && row.deleteAt ≤ cutoff && onServer sync row

def wantedIds : List String := (wanted sync).map fun row => row.embyId

/-- The run gets to the server. -/
def reachesServer : Bool :=
  (syncServerId sync.servers sync.mediaServerType).isSome && sync.collectionName ≠ "" &&
    sync.cutoff.isSome &&
    decide (Contactable
      (getClient { sync.cfg with mediaServers := sync.servers.map (·.toMediaServer) } serverId))

/-- `guarded_image_get`, for an address that starts with `http`. -/
def download (url : String) : Option Poster :=
  if startsWith url "http" && sync.imageAt url then some (.picture url) else none

/-- The image that `get_poster_url_by_emby_id` leads to. -/
def storedPoster (id : String) : Option Poster :=
  (sync.queue.find? fun row => row.embyId = id).bind fun row => download sync row.posterUrl

/-! ### A run -/

/-- The name under which the server knows the collection. -/
def collectionKey : String := sync.cfg.lower sync.collectionName

/-- `_get_or_create_collection`: the members, and nothing where there is no collection. -/
def getOrCreateCollection : Option (List String) :=
  match w.collections (collectionKey sync) with
  | some members => some members
  | none => if wanted sync = [] then none else some ((wantedIds sync).filter (· ∈ w.items))

/-- `current_ids`: the listing ends after 5000 items. -/
def currentIds (members : List String) : List String := members.take 5000

/-- `to_remove`. -/
def toRemove (members : List String) : List String :=
  (currentIds members).filter (· ∉ wantedIds sync)

/-- `_sync_collection_membership`: the items that are wanted come in, those that are listed and not
wanted go. -/
def syncMembership (members : List String) : EmbyState :=
  let added := (wantedIds sync).filter fun id => id ∉ currentIds members ∧ id ∈ w.items
  { w with
    collections := Function.update w.collections (collectionKey sync)
      (some ((members ++ added).filter (· ∉ toRemove sync members))) }

/-- `_restore_posters_for_removed`, for one item. -/
def restoreOne (w : EmbyState) (id : String) : EmbyState :=
  match storedPoster sync id with
  | some picture =>
      if id ∈ w.items then
        { w with
          poster := Function.update w.poster id (some picture)
          overlayCache := Function.update w.overlayCache id none }
      else w
  | none => w

/-- `_restore_posters_for_removed`. -/
def restorePosters (ids : List String) : EmbyState := ids.foldl (restoreOne sync) w

/-- `_apply_one`, up to the banner: the days on it, and the image that it is composed onto; nothing
where no banner is composed. -/
def composition (w : EmbyState) (row : QueueRow) : Option (ℕ × Poster) :=
  match daysLeft sync.today row.deleteAt with
  | none => none
  | some days =>
      if w.overlayCache row.embyId = some days then none
      else
        match (download sync row.posterUrl).or
          (if row.embyId ∈ w.items then w.poster row.embyId else none) with
        | none => none
        | some base => if sync.renders row.embyId then some (days, base) else none

/-- `_apply_one`. -/
def applyOne (w : EmbyState) (row : QueueRow) : EmbyState :=
  match composition sync w row with
  | none => w
  | some (days, base) =>
      if row.embyId ∈ w.items then
        { w with
          poster := Function.update w.poster row.embyId (some (.banner base days))
          overlayCache := Function.update w.overlayCache row.embyId (some days)
          overlaid :=
            if startsWith row.posterUrl "http" then row.embyId :: w.overlaid else w.overlaid }
      else w

/-- `_apply_overlays`; the identifiers of the rows are different, and each row leaves the others'
images alone. -/
def applyOverlays (rows : List QueueRow) : EmbyState := rows.foldl (applyOne sync) w

/-- The addresses that the rows of the server name. -/
def noteAddresses : EmbyState :=
  { w with
    addresses := (sync.queue.filter (onServer sync)).map (fun row => (row.embyId, row.posterUrl)) ++
      w.addresses }

/-- The members of the collection, where the run gets to them. -/
def reachedMembers : Option (List String) :=
  if reachesServer sync then getOrCreateCollection sync w else none

/-- The state before the first banner, where the run gets so far. -/
def beforeOverlays (members : List String) : EmbyState :=
  restorePosters sync (syncMembership sync (noteAddresses sync w) members)
    (toRemove sync members)

/-- `sync_emby_collection`. -/
def CollectionSync.run : EmbyState :=
  match reachedMembers sync w with
  | none => noteAddresses sync w
  | some members =>
      if sync.overlayEnabled then applyOverlays sync (beforeOverlays sync w members) (wanted sync)
      else syncMembership sync (noteAddresses sync w) members

/-! ### Between the runs -/

inductive CollectionEvent (serverId : String)
  | sync (sync : CollectionSync serverId)
  /-- A re-evaluation removes a row of the server; where the overlay is enabled and the address
  yields an image, it uploads the poster. -/
  | reevaluated (row : QueueRow) (overlayEnabled : Bool) (imageAt : String → Bool)
  /-- The process is started again. -/
  | restart
  | appears (id : String)
  | disappears (id : String)

/-- What happens to the server and to the process. -/
def CollectionEvent.apply (w : EmbyState) : CollectionEvent serverId → EmbyState
  | .sync sync => sync.run w
  | .reevaluated row overlayEnabled imageAt =>
      if overlayEnabled && startsWith row.posterUrl "http" && imageAt row.posterUrl &&
          row.embyId ∈ w.items then
        { w with
          poster := Function.update w.poster row.embyId (some (.picture row.posterUrl))
          addresses := (row.embyId, row.posterUrl) :: w.addresses }
      else w
  | .restart => { w with overlayCache := fun _ => none }
  | .appears id =>
      if id ∈ w.items then w
      else
        { w with
          items := id :: w.items
          poster := Function.update w.poster id (some .original) }
  | .disappears id =>
      { w with
        items := w.items.filter (· ≠ id)
        collections := fun name => (w.collections name).map fun members =>
          members.filter (· ≠ id) }

def runEvents (w : EmbyState) (events : List (CollectionEvent serverId)) : EmbyState :=
  events.foldl CollectionEvent.apply w

/-! ### The law -/

/-- A poster of the item: it came with it, or a row of the item has named it. -/
def IsPoster (id : String) : Poster → Prop
  | .original => True
  | .picture url => (id, url) ∈ w.addresses
  | .banner _ _ => False

/-- The item shows one of its own posters. -/
def ShowsOriginal (id : String) : Prop := ∀ p, w.poster id = some p → IsPoster w id p

/-- The law, for a run: what has had a banner and is not wanted shows its poster, and every banner
is composed onto a poster. -/
structure KeepsPosters : Prop where
  restored : ∀ id ∈ (sync.run w).items, id ∈ (sync.run w).overlaid → id ∉ wantedIds sync →
    ShowsOriginal (sync.run w) id
  composed : sync.overlayEnabled = true → ∀ members, reachedMembers sync w = some members →
    ∀ earlier row later, wanted sync = earlier ++ row :: later → ∀ days base,
      composition sync (applyOverlays sync (beforeOverlays sync w members) earlier) row =
          some (days, base) →
        IsPoster (sync.run w) row.embyId base

/-- The items that the server lists in the collection. -/
def listed : List String := currentIds ((w.collections (collectionKey sync)).getD [])

/-- The poster that the run restores for an item. -/
def restoreSource (id : String) : Option Poster :=
  if reachesServer sync && sync.overlayEnabled && id ∈ listed sync w && id ∉ wantedIds sync then
    storedPoster sync id
  else none

/-- The condition: what shows a banner and is not wanted any more is in the collection and has a row
with an address, an address that is found is one of the item, and an image that a banner is due for
and that has to come from the server shows none. -/
structure RestoresPosters : Prop where
  restorable : ∀ id ∈ w.items, id ∈ w.overlaid → id ∉ wantedIds sync →
    ¬ ShowsOriginal (noteAddresses sync w) id → (restoreSource sync w id).isSome
  own : ∀ id ∈ w.items, id ∈ w.overlaid → id ∉ wantedIds sync →
    ∀ p, restoreSource sync w id = some p → IsPoster (noteAddresses sync w) id p
  fresh : reachesServer sync = true → sync.overlayEnabled = true → ∀ row ∈ wanted sync,
    row.embyId ∈ w.items → ∀ days, daysLeft sync.today row.deleteAt = some days →
      w.overlayCache row.embyId ≠ some days → download sync row.posterUrl = none →
      sync.renders row.embyId = true → ShowsOriginal (noteAddresses sync w) row.embyId

/-! ### The loops -/

section Loops

variable {sync w}

@[simp] theorem items_restoreOne (id : String) : (restoreOne sync w id).items = w.items := by
  unfold restoreOne
  split
  · split_ifs <;> rfl
  · rfl

/-- What `restoreOne` leaves of another item, and of the rest. -/
theorem restoreOne_frame (id : String) :
    (restoreOne sync w id).addresses = w.addresses ∧ (restoreOne sync w id).overlaid = w.overlaid ∧
      (restoreOne sync w id).collections = w.collections ∧
      ∀ other, other ≠ id → (restoreOne sync w id).poster other = w.poster other ∧
        (restoreOne sync w id).overlayCache other = w.overlayCache other := by
  unfold restoreOne
  split
  · split_ifs
    · refine ⟨rfl, rfl, rfl, fun other hne => ⟨?_, ?_⟩⟩
      · exact Function.update_of_ne hne _ _
      · exact Function.update_of_ne hne _ _
    · exact ⟨rfl, rfl, rfl, fun _ _ => ⟨rfl, rfl⟩⟩
  · exact ⟨rfl, rfl, rfl, fun _ _ => ⟨rfl, rfl⟩⟩

theorem poster_restoreOne {id : String} (hitem : id ∈ w.items) :
    (restoreOne sync w id).poster id = (storedPoster sync id).or (w.poster id) := by
  unfold restoreOne
  cases storedPoster sync id with
  | none => rfl
  | some p =>
      dsimp only
      rw [if_pos hitem]
      exact Function.update_self _ _ _

@[simp] theorem items_restorePosters (ids : List String) :
    (restorePosters sync w ids).items = w.items := by
  unfold restorePosters
  induction ids generalizing w with
  | nil => rfl
  | cons id ids ih => rw [List.foldl_cons, ih, items_restoreOne]

theorem restorePosters_frame (ids : List String) :
    (restorePosters sync w ids).addresses = w.addresses ∧
      (restorePosters sync w ids).overlaid = w.overlaid ∧
      (restorePosters sync w ids).collections = w.collections ∧
      ∀ other ∉ ids, (restorePosters sync w ids).poster other = w.poster other ∧
        (restorePosters sync w ids).overlayCache other = w.overlayCache other := by
  unfold restorePosters
  induction ids generalizing w with
  | nil => exact ⟨rfl, rfl, rfl, fun _ _ => ⟨rfl, rfl⟩⟩
  | cons id ids ih =>
      obtain ⟨haddresses, hoverlaid, hcollections, hother⟩ := @restoreOne_frame _ sync w id
      obtain ⟨haddresses', hoverlaid', hcollections', hother'⟩ := @ih (restoreOne sync w id)
      refine ⟨haddresses'.trans haddresses, hoverlaid'.trans hoverlaid,
        hcollections'.trans hcollections, fun other hnot => ?_⟩
      obtain ⟨hne, hrest⟩ := not_or.1 (mt List.mem_cons.2 hnot)
      exact ⟨(hother' other hrest).1.trans (hother other hne).1,
        (hother' other hrest).2.trans (hother other hne).2⟩

/-- The restored posters. -/
theorem poster_restorePosters {ids : List String} {id : String} (hitem : id ∈ w.items)
    (hid : id ∈ ids) :
    (restorePosters sync w ids).poster id = (storedPoster sync id).or (w.poster id) := by
  unfold restorePosters
  induction ids generalizing w with
  | nil => exact absurd hid List.not_mem_nil
  | cons first ids ih =>
      have hitem' : id ∈ (restoreOne sync w first).items := by rwa [items_restoreOne]
      have hfirst : (storedPoster sync id).or ((restoreOne sync w first).poster id) =
          (storedPoster sync id).or (w.poster id) := by
        by_cases heq : id = first
        · rw [← heq, poster_restoreOne hitem, ← Option.or_assoc, Option.or_self]
        · rw [(restoreOne_frame first).2.2.2 id heq |>.1]
      by_cases hrest : id ∈ ids
      · rw [List.foldl_cons, ih hitem' hrest, hfirst]
      · obtain rfl : id = first := (List.mem_cons.1 hid).resolve_right hrest
        rw [List.foldl_cons]
        exact ((restorePosters_frame ids).2.2.2 id hrest).1.trans (poster_restoreOne hitem)

@[simp] theorem items_applyOne (row : QueueRow) : (applyOne sync w row).items = w.items := by
  unfold applyOne
  split
  · rfl
  · split_ifs <;> rfl

/-- What `applyOne` leaves of another item, and of the rest. -/
theorem applyOne_frame (row : QueueRow) :
    (applyOne sync w row).addresses = w.addresses ∧
      (applyOne sync w row).collections = w.collections ∧
      ∀ other, other ≠ row.embyId → (applyOne sync w row).poster other = w.poster other ∧
        (applyOne sync w row).overlayCache other = w.overlayCache other ∧
        (other ∈ (applyOne sync w row).overlaid ↔ other ∈ w.overlaid) := by
  unfold applyOne
  split
  · exact ⟨rfl, rfl, fun _ _ => ⟨rfl, rfl, Iff.rfl⟩⟩
  · split_ifs with hitem hhttp
    · refine ⟨rfl, rfl, fun other hne => ⟨?_, ?_, ?_⟩⟩
      · exact Function.update_of_ne hne _ _
      · exact Function.update_of_ne hne _ _
      · exact List.mem_cons.trans (or_iff_right hne)
    · refine ⟨rfl, rfl, fun other hne => ⟨?_, ?_, Iff.rfl⟩⟩
      · exact Function.update_of_ne hne _ _
      · exact Function.update_of_ne hne _ _
    · exact ⟨rfl, rfl, fun _ _ => ⟨rfl, rfl, Iff.rfl⟩⟩

@[simp] theorem items_applyOverlays (rows : List QueueRow) :
    (applyOverlays sync w rows).items = w.items := by
  unfold applyOverlays
  induction rows generalizing w with
  | nil => rfl
  | cons row rows ih => rw [List.foldl_cons, ih, items_applyOne]

theorem applyOverlays_frame (rows : List QueueRow) :
    (applyOverlays sync w rows).addresses = w.addresses ∧
      (applyOverlays sync w rows).collections = w.collections ∧
      ∀ other, other ∉ rows.map (fun row => row.embyId) →
        (applyOverlays sync w rows).poster other = w.poster other ∧
        (applyOverlays sync w rows).overlayCache other = w.overlayCache other ∧
        (other ∈ (applyOverlays sync w rows).overlaid ↔ other ∈ w.overlaid) := by
  unfold applyOverlays
  induction rows generalizing w with
  | nil => exact ⟨rfl, rfl, fun _ _ => ⟨rfl, rfl, Iff.rfl⟩⟩
  | cons row rows ih =>
      obtain ⟨haddresses, hcollections, hother⟩ := @applyOne_frame _ sync w row
      obtain ⟨haddresses', hcollections', hother'⟩ := @ih (applyOne sync w row)
      refine ⟨haddresses'.trans haddresses, hcollections'.trans hcollections,
        fun other hnot => ?_⟩
      rw [List.map_cons, List.mem_cons, not_or] at hnot
      obtain ⟨hposter, hcache, hoverlaid⟩ := hother other hnot.1
      obtain ⟨hposter', hcache', hoverlaid'⟩ := hother' other hnot.2
      exact ⟨hposter'.trans hposter, hcache'.trans hcache, hoverlaid'.trans hoverlaid⟩

/-- What a banner is composed onto. -/
theorem composition_eq_some {row : QueueRow} {days : ℕ} {base : Poster} :
    composition sync w row = some (days, base) ↔
      daysLeft sync.today row.deleteAt = some days ∧ w.overlayCache row.embyId ≠ some days ∧
        sync.renders row.embyId = true ∧
        (download sync row.posterUrl = some base ∨
          (download sync row.posterUrl = none ∧ row.embyId ∈ w.items ∧
            w.poster row.embyId = some base)) := by
  unfold composition
  cases daysLeft sync.today row.deleteAt with
  | none => simp
  | some left =>
      have hsource : (download sync row.posterUrl).or
            (if row.embyId ∈ w.items then w.poster row.embyId else none) = some base ↔
          (download sync row.posterUrl = some base ∨
            (download sync row.posterUrl = none ∧ row.embyId ∈ w.items ∧
              w.poster row.embyId = some base)) := by
        cases download sync row.posterUrl with
        | some p => simp
        | none =>
            rw [Option.none_or]
            split_ifs with hitem <;> simp [hitem]
      rw [← hsource]
      dsimp only
      -- a banner with these days is there already: nothing is composed
      by_cases hcache : w.overlayCache row.embyId = some left
      · rw [if_pos hcache]
        constructor
        · intro h
          cases h
        · rintro ⟨hdays, hnot, -⟩
          exact absurd (hdays ▸ hcache) hnot
      · rw [if_neg hcache]
        cases (download sync row.posterUrl).or
            (if row.embyId ∈ w.items then w.poster row.embyId else none) with
        | none => simp
        | some p =>
            dsimp only
            split_ifs with hrenders
            · simp only [Option.some.injEq, Prod.mk.injEq, hrenders, true_and]
              constructor
              · rintro ⟨rfl, rfl⟩
                exact ⟨rfl, hcache, rfl⟩
              · rintro ⟨rfl, -, rfl⟩
                exact ⟨rfl, rfl⟩
            · simp [hrenders]

/-- What is composed for a row depends on its own item alone. -/
theorem composition_congr {w' : EmbyState} {row : QueueRow} (hitems : w'.items = w.items)
    (hposter : w'.poster row.embyId = w.poster row.embyId)
    (hcache : w'.overlayCache row.embyId = w.overlayCache row.embyId) :
    composition sync w' row = composition sync w row := by
  unfold composition
  rw [hitems, hposter, hcache]

/-- The rows before it do not change what is composed for a row. -/
theorem composition_applyOverlays {earlier later : List QueueRow} {row : QueueRow}
    (hunique : ((earlier ++ row :: later).map fun row => row.embyId).Nodup) :
    composition sync (applyOverlays sync w earlier) row = composition sync w row := by
  have hnot : row.embyId ∉ earlier.map fun row => row.embyId := by
    rw [List.map_append, List.map_cons, List.nodup_middle, List.nodup_cons, List.mem_append,
      not_or] at hunique
    exact hunique.1.1
  obtain ⟨hposter, hcache, -⟩ := (@applyOverlays_frame _ sync w earlier).2.2 _ hnot
  exact composition_congr (items_applyOverlays earlier) hposter hcache

end Loops

/-! ### What a run leaves -/

section Run

variable {sync w} {members : List String} {id : String}

/-- The run begins its loops with what it has found, but for the posters that it has restored. -/
theorem beforeOverlays_frame (members : List String) :
    (beforeOverlays sync w members).items = w.items ∧
      (beforeOverlays sync w members).addresses = (noteAddresses sync w).addresses ∧
      (beforeOverlays sync w members).overlaid = w.overlaid ∧
      ∀ other ∉ toRemove sync members,
        (beforeOverlays sync w members).poster other = w.poster other ∧
        (beforeOverlays sync w members).overlayCache other = w.overlayCache other := by
  obtain ⟨haddresses, hoverlaid, -, hother⟩ := @restorePosters_frame _ sync
    (syncMembership sync (noteAddresses sync w) members) (toRemove sync members)
  exact ⟨items_restorePosters _, haddresses, hoverlaid, hother⟩

theorem notMem_toRemove_of_wanted (hwanted : id ∈ wantedIds sync) : id ∉ toRemove sync members := by
  rw [toRemove, List.mem_filter, decide_eq_true_iff]
  rintro ⟨-, hnot⟩
  exact hnot hwanted

@[simp] theorem items_run : (sync.run w).items = w.items := by
  unfold CollectionSync.run
  split
  · rfl
  · split_ifs
    · rw [items_applyOverlays]
      exact (beforeOverlays_frame _).1
    · rfl

@[simp] theorem addresses_run : (sync.run w).addresses = (noteAddresses sync w).addresses := by
  unfold CollectionSync.run
  split
  · rfl
  · split_ifs
    · exact (applyOverlays_frame _).1.trans (beforeOverlays_frame _).2.1
    · rfl

theorem isPoster_run (p : Poster) :
    IsPoster (sync.run w) id p ↔ IsPoster (noteAddresses sync w) id p := by
  cases p with
  | original => exact Iff.rfl
  | picture url =>
      unfold IsPoster
      rw [addresses_run]
  | banner base days => exact Iff.rfl

/-- The members that the run gets to are those that are there, or wanted ones. -/
theorem mem_toRemove_of_reached (hreached : reachedMembers sync w = some members)
    (hid : id ∉ wantedIds sync) :
    id ∈ toRemove sync members ↔ id ∈ listed sync w := by
  rw [toRemove, List.mem_filter, decide_eq_true_iff, and_iff_left hid]
  unfold reachedMembers at hreached
  split_ifs at hreached
  unfold getOrCreateCollection at hreached
  unfold listed
  cases hcollection : w.collections (collectionKey sync) with
  | some stored =>
      rw [hcollection] at hreached
      rw [Option.some.inj hreached]
      rfl
  | none =>
      rw [hcollection] at hreached
      dsimp only at hreached
      split_ifs at hreached
      rw [← Option.some.inj hreached]
      constructor
      · intro hmem
        exact absurd (List.mem_filter.1 (List.mem_of_mem_take hmem)).1 hid
      · intro hmem
        cases List.mem_of_mem_take hmem

/-- Without members there is nothing that is listed. -/
theorem listed_eq_nil (hreach : reachesServer sync = true)
    (hreached : reachedMembers sync w = none) :
    listed sync w = [] := by
  rw [reachedMembers, if_pos hreach] at hreached
  unfold getOrCreateCollection at hreached
  unfold listed
  cases hcollection : w.collections (collectionKey sync) with
  | some stored =>
      rw [hcollection] at hreached
      cases hreached
  | none => rfl

/-- What an item shows that is not wanted. -/
theorem poster_run (hitem : id ∈ w.items) (hid : id ∉ wantedIds sync) :
    (sync.run w).poster id = (restoreSource sync w id).or (w.poster id) := by
  unfold CollectionSync.run
  cases hreached : reachedMembers sync w with
  | none =>
      have hsource : restoreSource sync w id = none := by
        unfold restoreSource
        by_cases hreach : reachesServer sync = true
        · rw [listed_eq_nil hreach hreached]
          simp
        · rw [Bool.eq_false_iff.2 hreach]
          rfl
      rw [hsource]
      rfl
  | some members =>
      have hreach : reachesServer sync = true := by
        by_contra hnot
        rw [reachedMembers, if_neg hnot] at hreached
        cases hreached
      dsimp only
      by_cases henabled : sync.overlayEnabled = true
      · rw [if_pos henabled, ((applyOverlays_frame _).2.2 id hid).1]
        by_cases hremove : id ∈ toRemove sync members
        · have hlisted := (mem_toRemove_of_reached hreached hid).1 hremove
          have hsource : restoreSource sync w id = storedPoster sync id := by
            rw [restoreSource, if_pos (by simp [hreach, henabled, hlisted, hid])]
          rw [hsource]
          exact poster_restorePosters (w := syncMembership sync (noteAddresses sync w) members)
            hitem hremove
        · have hlisted := mt (mem_toRemove_of_reached hreached hid).2 hremove
          have hsource : restoreSource sync w id = none := by
            rw [restoreSource, if_neg (by simp [hlisted])]
          rw [hsource, ((beforeOverlays_frame members).2.2.2 id hremove).1]
          rfl
      · have hsource : restoreSource sync w id = none := by
          rw [restoreSource, if_neg (by simp [henabled])]
        rw [if_neg henabled, hsource]
        rfl

theorem mem_overlaid_run (hid : id ∉ wantedIds sync) :
    id ∈ (sync.run w).overlaid ↔ id ∈ w.overlaid := by
  unfold CollectionSync.run
  split
  · exact Iff.rfl
  · next members _ =>
    split_ifs
    · rw [((applyOverlays_frame _).2.2 id hid).2.2, (beforeOverlays_frame members).2.2.1]
    · exact Iff.rfl

/-! ### When a run keeps the law -/

theorem mem_wanted {row : QueueRow} (hrow : row ∈ wanted sync) :
    row ∈ sync.queue ∧ onServer sync row = true := by
  unfold wanted at hrow
  split at hrow
  · cases hrow
  · rw [List.mem_filter, Bool.and_eq_true] at hrow
    exact ⟨hrow.1, hrow.2.2⟩

theorem nodup_wantedIds (sync : CollectionSync serverId) : (wantedIds sync).Nodup := by
  refine List.Nodup.sublist ?_ sync.unique
  unfold wantedIds wanted
  refine List.Sublist.map _ ?_
  split
  · exact List.nil_sublist _
  · exact List.filter_sublist

theorem reachedMembers_of_wanted (hreach : reachesServer sync = true) (hwanted : wanted sync ≠ []) :
    ∃ members, reachedMembers sync w = some members := by
  unfold reachedMembers getOrCreateCollection
  rw [if_pos hreach]
  split
  next members _ => exact ⟨members, rfl⟩
  next => exact ⟨_, if_neg hwanted⟩

theorem reachesServer_of_reached (hreached : reachedMembers sync w = some members) :
    reachesServer sync = true := by
  by_contra hnot
  rw [reachedMembers, if_neg hnot] at hreached
  cases hreached

/-- What is composed for a wanted row, in the loop: as the run has found it. -/
theorem composition_loop {earlier later : List QueueRow} {row : QueueRow}
    (hsplit : wanted sync = earlier ++ row :: later) :
    composition sync (applyOverlays sync (beforeOverlays sync w members) earlier) row =
      composition sync w row := by
  have hunique := nodup_wantedIds sync
  rw [wantedIds, hsplit] at hunique
  rw [composition_applyOverlays hunique]
  have hid : row.embyId ∈ wantedIds sync := by
    rw [wantedIds, hsplit]
    exact List.mem_map_of_mem (List.mem_append_right _ List.mem_cons_self)
  obtain ⟨hitems, -, -, hother⟩ := @beforeOverlays_frame _ sync w members
  obtain ⟨hposter, hcache⟩ := hother _ (notMem_toRemove_of_wanted hid)
  exact composition_congr hitems hposter hcache

theorem download_eq_some {url : String} {p : Poster} (h : download sync url = some p) :
    p = .picture url := by
  unfold download at h
  split_ifs at h
  exact (Option.some.inj h).symm

/-- The image of an item that is not wanted, after the run. -/
theorem showsOriginal_run (hitem : id ∈ w.items) (hid : id ∉ wantedIds sync) :
    ShowsOriginal (sync.run w) id ↔
      (¬ ShowsOriginal (noteAddresses sync w) id → (restoreSource sync w id).isSome) ∧
        ∀ p, restoreSource sync w id = some p → IsPoster (noteAddresses sync w) id p := by
  unfold ShowsOriginal
  rw [poster_run hitem hid]
  simp only [isPoster_run]
  cases restoreSource sync w id with
  | none =>
      constructor
      · intro h
        exact ⟨fun hnot => absurd h hnot, fun p hp => (nomatch hp)⟩
      · rintro ⟨h, -⟩
        by_contra hnot
        cases h hnot
  | some source =>
      constructor
      · intro h
        exact ⟨fun _ => rfl, h⟩
      · rintro ⟨-, h⟩
        exact h

/-- When the law holds of a run. -/
theorem keepsPosters_iff : KeepsPosters sync w ↔ RestoresPosters sync w := by
  constructor
  · intro h
    have hrestored : ∀ id ∈ w.items, id ∈ w.overlaid → (hid : id ∉ wantedIds sync) →
        ShowsOriginal (sync.run w) id := fun id hitem hoverlaid hid =>
      h.restored id (items_run.symm ▸ hitem) ((mem_overlaid_run hid).2 hoverlaid) hid
    refine ⟨fun id hitem hoverlaid hid => ?_, fun id hitem hoverlaid hid => ?_, ?_⟩
    · exact ((showsOriginal_run hitem hid).1 (hrestored id hitem hoverlaid hid)).1
    · exact ((showsOriginal_run hitem hid).1 (hrestored id hitem hoverlaid hid)).2
    · intro hreach henabled row hrow hitem days hdays hcache hdownload hrenders p hp
      obtain ⟨members, hmembers⟩ := reachedMembers_of_wanted (w := w) hreach
        (List.ne_nil_of_mem hrow)
      obtain ⟨earlier, later, hsplit⟩ := List.append_of_mem hrow
      have hcomposition : composition sync w row = some (days, p) :=
        composition_eq_some.2 ⟨hdays, hcache, hrenders, .inr ⟨hdownload, hitem, hp⟩⟩
      rw [← isPoster_run]
      exact h.composed henabled members hmembers earlier row later hsplit days p
        ((composition_loop hsplit).trans hcomposition)
  · intro h
    refine ⟨fun id hitem hoverlaid hid => ?_, ?_⟩
    · rw [items_run] at hitem
      rw [mem_overlaid_run hid] at hoverlaid
      exact (showsOriginal_run hitem hid).2
        ⟨h.restorable id hitem hoverlaid hid, h.own id hitem hoverlaid hid⟩
    · intro henabled members hmembers earlier row later hsplit days base hcomposition
      rw [composition_loop hsplit] at hcomposition
      have hrow : row ∈ wanted sync := by
        rw [hsplit]
        exact List.mem_append_right _ List.mem_cons_self
      rw [isPoster_run]
      obtain ⟨hdays, hcache, hrenders, hdownload | ⟨hdownload, hitem, hposter⟩⟩ :=
        composition_eq_some.1 hcomposition
      · -- the image at the address of the row, which is one of the server
        obtain rfl := download_eq_some hdownload
        obtain ⟨hqueue, hserver⟩ := mem_wanted hrow
        exact List.mem_append_left _
          (List.mem_map.2 ⟨row, List.mem_filter.2 ⟨hqueue, hserver⟩, rfl⟩)
      · exact h.fresh (reachesServer_of_reached hmembers) henabled row hrow hitem days hdays hcache
          hdownload hrenders base hposter

end Run

/-- **Exactly the sequences of runs along which the law holds**: before each run, the banners that
it has to take away have a row with an address of their own, and the images that it takes from the
server show none. -/
theorem keepsPosters_run_iff (start : EmbyState) (events : List (CollectionEvent serverId)) :
    (∀ earlier sync later, events = earlier ++ .sync sync :: later →
        KeepsPosters sync (runEvents start earlier)) ↔
      ∀ earlier sync later, events = earlier ++ .sync sync :: later →
        RestoresPosters sync (runEvents start earlier) :=
  forall₃_congr fun _ _ _ => imp_congr_right fun _ => keepsPosters_iff

/-! ### Unchanged settings -/

section Steady

variable {sync w} {name : String} {id : String}

/-- What shows a banner is in the collection. -/
def Tracked (name : String) (w : EmbyState) : Prop :=
  ∀ id ∈ w.items, id ∈ w.overlaid → ¬ ShowsOriginal w id →
    ∃ members, w.collections name = some members ∧ id ∈ members

/-- The run is for this collection, which is listed as a whole. -/
structure Steady (name : String) (sync : CollectionSync serverId) (w : EmbyState) : Prop where
  reaches : reachesServer sync = true
  enabled : sync.overlayEnabled = true
  key : collectionKey sync = name
  short : ∀ members, w.collections name = some members → members.length ≤ 5000

theorem collections_run {members : List String} (hreached : reachedMembers sync w = some members) :
    (sync.run w).collections =
      (syncMembership sync (noteAddresses sync w) members).collections := by
  unfold CollectionSync.run
  rw [hreached]
  dsimp only
  split_ifs
  · exact (applyOverlays_frame _).2.1.trans (restorePosters_frame _).2.2.1
  · rfl

/-- What is wanted is in the collection after a run. -/
theorem mem_collection_run (hreach : reachesServer sync = true) (hitem : id ∈ w.items)
    (hid : id ∈ wantedIds sync) :
    ∃ members, (sync.run w).collections (collectionKey sync) = some members ∧ id ∈ members := by
  have hwanted : wanted sync ≠ [] := by
    intro hnil
    rw [wantedIds, hnil] at hid
    cases hid
  obtain ⟨members, hreached⟩ := reachedMembers_of_wanted (w := w) hreach hwanted
  refine ⟨_, by rw [collections_run hreached]; exact Function.update_self _ _ _, ?_⟩
  rw [List.mem_filter, decide_eq_true_iff]
  refine ⟨?_, notMem_toRemove_of_wanted hid⟩
  by_cases hlisted : id ∈ currentIds members
  · exact List.mem_append_left _ (List.mem_of_mem_take hlisted)
  · exact List.mem_append_right _ (List.mem_filter.2 ⟨hid, decide_eq_true ⟨hlisted, hitem⟩⟩)

/-- A poster stays a poster when more addresses are known. -/
theorem IsPoster.mono {w' : EmbyState} (hsub : w.addresses ⊆ w'.addresses) {p : Poster}
    (h : IsPoster w id p) : IsPoster w' id p := by
  cases p with
  | original => exact trivial
  | picture url => exact hsub h
  | banner base days => exact h

theorem tracked_sync (hsteady : Steady name sync w) (hkeeps : KeepsPosters sync w) :
    Tracked name (sync.run w) := by
  intro id hitem hoverlaid hbanner
  by_cases hid : id ∈ wantedIds sync
  · rw [← hsteady.key]
    exact mem_collection_run hsteady.reaches (items_run ▸ hitem) hid
  · exact absurd (hkeeps.restored id hitem hoverlaid hid) hbanner

/-- What happens between two runs takes nothing with a banner out of the collection. -/
theorem tracked_between {event : CollectionEvent serverId} (hevent : ∀ sync, event ≠ .sync sync)
    (htracked : Tracked name w) : Tracked name (event.apply w) := by
  cases event with
  | sync sync => exact absurd rfl (hevent sync)
  | reevaluated row overlayEnabled imageAt =>
      unfold CollectionEvent.apply
      dsimp only
      split_ifs
      · intro id hitem hoverlaid hbanner
        by_cases heq : id = row.embyId
        · -- the poster has just been uploaded
          refine absurd (fun p hp => ?_) hbanner
          rw [heq] at hp ⊢
          have hself := Function.update_self row.embyId
              (some (Poster.picture row.posterUrl)) w.poster
          obtain rfl := Option.some.inj (hself.symm.trans hp)
          exact List.mem_cons_self
        · refine htracked id hitem hoverlaid fun hshows => hbanner fun p hp => ?_
          exact (hshows p ((Function.update_of_ne heq _ _).symm.trans hp)).mono
            (List.subset_cons_self _ _)
      · exact htracked
  | restart => exact htracked
  | appears new =>
      unfold CollectionEvent.apply
      dsimp only
      split_ifs
      · exact htracked
      · intro id hitem hoverlaid hbanner
        by_cases heq : id = new
        · refine absurd (fun p hp => ?_) hbanner
          rw [heq] at hp
          have hself := Function.update_self new (some Poster.original) w.poster
          obtain rfl := Option.some.inj (hself.symm.trans hp)
          exact trivial
        · have hold := (List.mem_cons.1 hitem).resolve_left heq
          refine htracked id hold hoverlaid fun hshows => hbanner fun p hp => ?_
          exact hshows p ((Function.update_of_ne heq _ _).symm.trans hp)
  | disappears gone =>
      intro id hitem hoverlaid hbanner
      obtain ⟨hold, hne⟩ := List.mem_filter.1 hitem
      obtain ⟨members, hmembers, hid⟩ := htracked id hold hoverlaid hbanner
      refine ⟨members.filter (· ≠ gone), ?_, List.mem_filter.2 ⟨hid, hne⟩⟩
      exact congrArg (Option.map fun members => members.filter (· ≠ gone)) hmembers

/-- With unchanged settings a title with a banner is in the collection. -/
theorem tracked_run {start : EmbyState} {events : List (CollectionEvent serverId)}
    (hstart : Tracked name start)
    (hsteady : ∀ earlier sync later, events = earlier ++ .sync sync :: later →
      Steady name sync (runEvents start earlier))
    (hkeeps : ∀ earlier sync later, events = earlier ++ .sync sync :: later →
      KeepsPosters sync (runEvents start earlier)) :
    Tracked name (runEvents start events) := by
  induction events using List.reverseRecOn with
  | nil => exact hstart
  | append_singleton events event ih =>
      have hbefore := ih
        (fun earlier sync later hsplit =>
          hsteady earlier sync (later ++ [event]) (by rw [hsplit]; simp))
        (fun earlier sync later hsplit =>
          hkeeps earlier sync (later ++ [event]) (by rw [hsplit]; simp))
      have happly : runEvents start (events ++ [event]) =
          event.apply (runEvents start events) := by
        rw [runEvents, List.foldl_append]
        rfl
      rw [happly]
      cases event with
      | sync sync => exact tracked_sync (hsteady events sync [] rfl) (hkeeps events sync [] rfl)
      | reevaluated => exact tracked_between (fun _ h => (nomatch h)) hbefore
      | restart => exact tracked_between (fun _ h => (nomatch h)) hbefore
      | appears => exact tracked_between (fun _ h => (nomatch h)) hbefore
      | disappears => exact tracked_between (fun _ h => (nomatch h)) hbefore

/-- The condition with unchanged settings: it is about the queue alone and about the images. -/
structure RestoresRows (sync : CollectionSync serverId) (w : EmbyState) : Prop where
  restorable : ∀ id ∈ w.items, id ∈ w.overlaid → id ∉ wantedIds sync →
    ¬ ShowsOriginal (noteAddresses sync w) id → (storedPoster sync id).isSome
  own : ∀ id ∈ w.items, id ∈ w.overlaid → id ∉ wantedIds sync →
    ∀ p, storedPoster sync id = some p → IsPoster (noteAddresses sync w) id p
  fresh : ∀ row ∈ wanted sync, row.embyId ∈ w.items → ∀ days,
    daysLeft sync.today row.deleteAt = some days → w.overlayCache row.embyId ≠ some days →
      download sync row.posterUrl = none → sync.renders row.embyId = true →
        ShowsOriginal (noteAddresses sync w) row.embyId

theorem restoresPosters_of_rows (htracked : Tracked name w) (hsteady : Steady name sync w)
    (hrows : RestoresRows sync w) : RestoresPosters sync w := by
  refine ⟨fun id hitem hoverlaid hid hbanner => ?_, fun id hitem hoverlaid hid p hp => ?_,
    fun _ _ => hrows.fresh⟩
  · -- the banner was there before the addresses of this run were known
    obtain ⟨members, hmembers, hmem⟩ := htracked id hitem hoverlaid fun hshows =>
      hbanner fun p hp => (hshows p hp).mono (List.subset_append_right _ _)
    have hlisted : id ∈ listed sync w := by
      rw [listed, hsteady.key, hmembers, Option.getD_some, currentIds,
        List.take_of_length_le (hsteady.short members hmembers)]
      exact hmem
    rw [restoreSource, if_pos (by simp [hsteady.reaches, hsteady.enabled, hlisted, hid])]
    exact hrows.restorable id hitem hoverlaid hid hbanner
  · unfold restoreSource at hp
    split_ifs at hp
    exact hrows.own id hitem hoverlaid hid p hp

/-- With unchanged settings the law holds along the runs in which every banner to be taken away has
a row in the queue. -/
theorem keepsPosters_of_rows {start : EmbyState} {events : List (CollectionEvent serverId)}
    (hstart : Tracked name start)
    (hsteady : ∀ earlier sync later, events = earlier ++ .sync sync :: later →
      Steady name sync (runEvents start earlier))
    (hrows : ∀ earlier sync later, events = earlier ++ .sync sync :: later →
      RestoresRows sync (runEvents start earlier)) :
    ∀ earlier sync later, events = earlier ++ .sync sync :: later →
      KeepsPosters sync (runEvents start earlier) := by
  induction events using List.reverseRecOn with
  | nil =>
      intro earlier sync later hsplit
      simp at hsplit
  | append_singleton events event ih =>
      have hsteady' : ∀ earlier sync later, events = earlier ++ .sync sync :: later →
          Steady name sync (runEvents start earlier) := fun earlier sync later hsplit =>
        hsteady earlier sync (later ++ [event]) (by rw [hsplit]; simp)
      have hkeeps := ih hsteady' fun earlier sync later hsplit =>
        hrows earlier sync (later ++ [event]) (by rw [hsplit]; simp)
      intro earlier sync later hsplit
      rcases List.eq_nil_or_concat later with rfl | ⟨later, last, rfl⟩
      · -- the last event: what came before it has kept the law
        obtain ⟨rfl, hevent⟩ := List.append_inj' hsplit rfl
        exact keepsPosters_iff.2 (restoresPosters_of_rows (tracked_run hstart hsteady' hkeeps)
          (hsteady events sync [] hsplit) (hrows events sync [] hsplit))
      · have hinit : events ++ [event] = (earlier ++ .sync sync :: later) ++ [last] := by
          rw [hsplit]
          simp
        exact hkeeps earlier sync later (List.append_inj' hinit rfl).1

end Steady

/-! ### A title that is ignored -/

/-- A run that everything answers, on a server with one library. -/
def collectionSync (queue : List QueueRow) (unique : (queue.map fun row => row.embyId).Nodup) :
    CollectionSync "e1" where
  cfg := {}
  servers := [{ id := "e1", url := "http://emby:8096", apiKey := "key", type := "emby" }]
  mediaServerType := ""
  collectionName := "Bientôt supprimé"
  overlayEnabled := true
  cutoff := some "2026-02-10T00:00:00+00:00"
  today := 739640
  libraries := [⟨"l1", some "e1"⟩]
  queue := queue
  imageAt _ := true
  renders _ := true
  unique := unique
  target := by
    intro id h
    exact (Option.some.inj h).symm

/-- The server with one film. -/
def oneFilm : EmbyState where
  items := ["7"]
  collections _ := none
  poster id := if id = "7" then some .original else none
  overlayCache _ := none
  addresses := []
  overlaid := []

/-- The film gets its banner and is ignored; the run after that takes it out of the collection, and
its row, with the address of the poster, is gone. -/
theorem not_keepsPosters_ignored :
    ¬ ∀ (start : EmbyState) (events : List (CollectionEvent "e1")) earlier sync later,
      events = earlier ++ .sync sync :: later → sync.overlayEnabled = true →
        (∀ url, sync.imageAt url = true) → KeepsPosters sync (runEvents start earlier) := by
  intro hall
  have h := hall oneFilm
    [.sync (collectionSync [pendingFilm] (List.nodup_singleton _)), .sync (collectionSync [] .nil)]
    [.sync (collectionSync [pendingFilm] (List.nodup_singleton _))] (collectionSync [] .nil) [] rfl
    rfl fun _ => rfl
  have hitem : "7" ∈ ((collectionSync [] .nil).run (runEvents oneFilm
      [.sync (collectionSync [pendingFilm] (List.nodup_singleton _))])).items := by
    rw [items_run]
    decide +kernel
  have hoverlaid : "7" ∈ ((collectionSync [] .nil).run (runEvents oneFilm
      [.sync (collectionSync [pendingFilm] (List.nodup_singleton _))])).overlaid := by
    decide +kernel
  have hposter : ((collectionSync [] .nil).run (runEvents oneFilm
      [.sync (collectionSync [pendingFilm] (List.nodup_singleton _))])).poster "7" =
        some (.banner (.picture "https://image.tmdb.org/poster.jpg") 8) := by
    decide +kernel
  exact h.restored "7" hitem hoverlaid (by decide +kernel) _ hposter

end EmbyOverlay

end Hygie
