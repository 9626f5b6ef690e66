/-
**The media servers.**

An item is deleted from Emby or Jellyfin through `emby_client`, and from Plex through `plex_client`;
`media_server_factory` chooses between the two by the type of the server.  Which server is meant is
told by an identifier: `getClient` looks it up in the setting and, when it is not there, takes the
legacy server.

Main definitions:

* `getClient`, `findItemByPath`, `deleteItem` — Emby and Jellyfin;
* `buildPlexClient`, `PlexClient.deleteItem` — Plex;
* `deleteServerItem` — the choice between them.

Main results:

* `searches_findItemByPath` — an item found by path is listed and has that path;
* `wp_deleteItem`, `wp_plexDeleteItem` — the one request that a deletion sends.
-/

import Hygie.PyText
import Hygie.Schema
import Hygie.Wire
import Hygie.ArrShared

set_option relaxedAutoImplicit false
set_option autoImplicit false

namespace Hygie

open PyText

/-! ### Emby and Jellyfin -/

/-- The key of a server, decrypted when it is stored encrypted. -/
def MediaServer.key (cfg : Config) (s : MediaServer) : String :=
  if startsWith s.apiKey "enc:" then cfg.decryptValue s.apiKey else s.apiKey

/-- `get_client`: address and key of a server, or of the legacy server when it is not listed. -/
def getClient (cfg : Config) (serverId : String) : String × String :=
  match cfg.mediaServers.find? (·.id == serverId) with
  | some s => (rstripSlash s.url, s.key cfg)
  | none => (rstripSlash cfg.embyUrl, cfg.embyApiKey)

/-- A server can be contacted. -/
abbrev Contactable (client : String × String) : Prop := client.1 ≠ "" ∧ client.2 ≠ ""

/-- `find_item_by_path`: the first listed item whose path is the given one, but for slashes at the
end. -/
def findItemByPath (cfg : Config) (path : String) (types : ItemType) (serverId : String) :
    Act (Option EmbyItem) :=
  let client := getClient cfg serverId
  if path ≠ "" ∧ Contactable client then do
    try
      let _ ← send (.breaker ("emby:" ++ serverId))
      match ← httpRetry (send (.embyItems client.1 client.2 path types)) with
      | .ok items => pure (items.find? fun item => rstripSlash item.path == rstripSlash path)
      | _ => pure none
    catch _ => pure none
  else pure none

/-- `emby_client.delete_item`. -/
def deleteItem (cfg : Config) (itemId serverId : String) : Act Bool :=
  let client := getClient cfg serverId
  if Contactable client then do
    try
      let r ← httpRetry (send (.embyDelete client.1 client.2 itemId))
      pure r.succeeded
    catch _ => pure false
  else pure false

/-! ### Plex -/

/-- `is_plex`: the type, in lower case, is `plex`. -/
def isPlex (cfg : Config) (s : MediaServer) : Bool := cfg.lower s.type == "plex"

/-- The client of one Plex server. -/
structure PlexClient where
  url : String
  token : String
  deriving DecidableEq, Repr

/-- `build_plex_client`: for the type spelled `plex`, with an address and a token. -/
def buildPlexClient (s : MediaServer) : Option PlexClient :=
  let url := rstripSlash s.url
  if s.type = "plex" ∧ url ≠ "" ∧ s.apiKey ≠ "" then some ⟨url, s.apiKey⟩ else none

/-- `PlexClient.delete_item`: 404 is `False`, any other status outside 2xx is an exception. -/
def PlexClient.deleteItem (plex : PlexClient) (ratingKey : String) : Act Bool := do
  match ← send (.plexDelete plex.url plex.token ratingKey) with
  | .ok _ | .noContent => pure true
  | .failed code =>
      if code = 404 then pure false
      else if 200 ≤ code ∧ code < 300 then pure true
      else throw .fatal

/-! ### The choice -/

/-- The server that an absent one is read as. -/
def noServer : MediaServer := ⟨"", "", "", ""⟩

/-- `get_server_item_id`. -/
def getServerItemId (cfg : Config) (server : MediaServer) (row : QueueRow) : String :=
  if isPlex cfg server then
    if row.plexRatingKey ≠ "" then row.plexRatingKey else row.embyId
  else row.embyId

/-- `delete_server_item`. -/
def deleteServerItem (cfg : Config) (server : MediaServer) (row : QueueRow) (serverId : String) :
    Act Bool :=
  if isPlex cfg server then
    match buildPlexClient server with
    | some plex => plex.deleteItem (getServerItemId cfg server row)
    | none => pure false
  else deleteItem cfg row.embyId (if serverId ≠ "" then serverId else server.id)

/-! ### What they can do -/

variable {holds : ∀ q : Query, q.Body → Prop} {P : Query → Prop} {C : Prop} {cfg : Config}

section Rules

variable (hP : ∀ q : Query, q.touches = false → P q)

include hP

/-- An item found by path is the first listed one with that path. -/
theorem searches_findItemByPath (path : String) (types : ItemType) (serverId : String) :
    Prog.Searches (Permits holds) P (findItemByPath cfg path types serverId)
      (fun item => (path ≠ "" ∧ Contactable (getClient cfg serverId)) ∧ ∃ items,
        holds (.embyItems (getClient cfg serverId).1 (getClient cfg serverId).2 path types) items ∧
          items.find? (fun item => rstripSlash item.path == rstripSlash path) = some item)
      False := by
  refine Prog.Searches.congr (Prog.Searches.ite (fun _ => Prog.Searches.tryCatch
    (Searches.after (hP _ rfl) (Searches.httpRetry (Searches.send (hP (.embyItems _ _ path types)
      rfl) (fun _ => rfl) rfl fun _ => rfl)))) fun _ => Prog.Searches.none) ?_ ?_
  · intro item
    simp only [and_false, or_false]
  · simp

end Rules

/-- **A deletion from Emby or Jellyfin** is one request to the client of the identifier. -/
theorem wp_deleteItem (itemId serverId : String) {R : Bool → Prop} :
    Prog.wp (Permits holds) P (deleteItem cfg itemId serverId) R (fun _ => C) ↔
      if Contactable (getClient cfg serverId) then
        P (.embyDelete (getClient cfg serverId).1 (getClient cfg serverId).2 itemId) ∧
          R true ∧ R false
      else R false := by
  rw [deleteItem]
  split_ifs with h
  · simp only [Prog.wp_tryCatch, Prog.wp_bind, wp_httpRetry, wp_send, Prog.wp_pure,
      Reply.succeeded, forall_const]
    tauto
  · rw [Prog.wp_pure]

/-- **A deletion from Plex** is one request to the server; it may raise. -/
theorem wp_plexDeleteItem (plex : PlexClient) (ratingKey : String) {R : Bool → Prop} :
    Prog.wp (Permits holds) P (plex.deleteItem ratingKey) R (fun _ => C) ↔
      P (.plexDelete plex.url plex.token ratingKey) ∧ R true ∧ R false ∧ C := by
  simp only [PlexClient.deleteItem, Prog.wp_bind, wp_send, Prog.wp_pure, Prog.wp_ite,
    Prog.wp_throw]
  refine and_congr_right fun _ => ?_
  constructor
  · rintro ⟨-, htrue, hcode, hfault⟩
    exact ⟨htrue, (hcode 404).1 rfl, hfault .fatal⟩
  · rintro ⟨htrue, hfalse, hC⟩
    exact ⟨fun _ _ => htrue, htrue, fun c => ⟨fun _ => hfalse, fun _ => ⟨fun _ => htrue,
      fun _ => hC⟩⟩, fun _ => hC⟩

end Hygie
