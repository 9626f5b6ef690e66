/-
**What the Radarr and Sonarr clients share.**

A Radarr or Sonarr server is reached through a base address and a key.  `getArrServers` lists the
configured ones, `resolveArrServer` finds the one a stored identifier belongs to, and
`firstFromServers` asks one after the other.

Main definitions:

* `getArrServers`, `resolveArrCreds` — the configured servers, and the legacy default;
* `normalizeArrUrl`, `resolveArrServer` — the server that a row's recorded address names;
* `firstFromServers` — the first answer of a list of servers;
* `pathMatches` — whether a file belongs to an item of a server.

Main results:

* `resolveArrServer_mem`, `getArrServers_complete` — a resolved server is a configured one, and a
  configured one has an address and a key.
-/

import Hygie.PyText
import Hygie.Schema
import Hygie.Wire

set_option relaxedAutoImplicit false
set_option autoImplicit false

namespace Hygie

open PyText

/-- The base address of a server, as every request to it uses it. -/
def ArrServer.base (srv : ArrServer) : String := rstripSlash srv.url

/-- `_resolve_arr_creds`: the module's default when an address or a key is missing. -/
def resolveArrCreds (url key : String) (config : String × String) : String × String :=
  if url = "" ∨ key = "" then config else (url, key)

/-- The guard of the requests for an object: address, key and identifier are all there. -/
abbrev Addressable (creds : String × String) (id : ℤ) : Prop :=
  creds.1 ≠ "" ∧ creds.2 ≠ "" ∧ id ≠ 0

/-- `_normalize_arr_url`. -/
def normalizeArrUrl (cfg : Config) (url : String) : String :=
  cfg.lower (rstripSlash (strip url))

/-- The base address and key of a server. -/
def ArrServer.target (srv : ArrServer) : String × String := (srv.base, srv.apiKey)

/-- `_resolve_arr_server`: the server that a recorded address names or, without one, the only
server. -/
def resolveArrServer (cfg : Config) (servers : List ArrServer) (arrServerUrl : Option String) :
    Option (String × String) :=
  match truthyText arrServerUrl with
  | some url =>
      (servers.find? fun srv => normalizeArrUrl cfg srv.url == normalizeArrUrl cfg url).map
        ArrServer.target
  | none =>
      match servers with
      | [srv] => some srv.target
      | _ => none

/-- `_get_arr_servers`: the enabled servers of the list or, when there is none, the legacy one. -/
def getArrServers (multi : List ArrServer) (config : String × String) : List ArrServer :=
  let servers := multi.filter fun s => s.enabled && s.url ≠ "" && s.apiKey ≠ ""
  if servers = [] then
    if config.1 ≠ "" ∧ config.2 ≠ "" then [⟨config.1, config.2, true⟩] else []
  else servers

/-- `_first_from_servers`: the first server with an answer. -/
def firstFromServers {β : Type} (servers : List ArrServer)
    (fetch : String → String → Act (Option β)) : Act (Option β) :=
  Prog.firstSome (fun srv => fetch srv.base srv.apiKey) servers

/-- `_path_matches`: the file of the item, or a file below the folder of the item. -/
def pathMatches (filePath itemPath folder : String) : Bool :=
  (itemPath ≠ "" && itemPath == filePath) ||
    (folder ≠ "" && startsWith filePath (rstripSlash folder ++ "/"))

/-- A usable `downloadId`: in lower case, as long as a torrent hash. -/
def usableHash (cfg : Config) (rec : HistoryRecord) : Option String :=
  let dlId := cfg.lower rec.downloadId
  if dlId ≠ "" ∧ 32 ≤ dlId.length then some dlId else none

/-! ### The server of an identifier -/

/-- A resolved server is one of the configured servers. -/
theorem resolveArrServer_mem {cfg : Config} {servers : List ArrServer} {u : Option String}
    {t : String × String} (h : resolveArrServer cfg servers u = some t) :
    ∃ srv ∈ servers, srv.target = t := by
  cases hu : truthyText u with
  | some url =>
      simp only [resolveArrServer, hu, Option.map_eq_some_iff] at h
      obtain ⟨srv, hsrv, rfl⟩ := h
      exact ⟨srv, List.mem_of_find?_eq_some hsrv, rfl⟩
  | none =>
      match servers with
      | [] => simp [resolveArrServer, hu] at h
      | [srv] =>
          simp only [resolveArrServer, hu, Option.some.injEq] at h
          exact ⟨srv, List.mem_singleton_self srv, h⟩
      | _ :: _ :: _ => simp [resolveArrServer, hu] at h

/-- Every configured server has an address and a key. -/
theorem getArrServers_complete {multi : List ArrServer} {config : String × String}
    {srv : ArrServer} (h : srv ∈ getArrServers multi config) :
    srv.url ≠ "" ∧ srv.apiKey ≠ "" := by
  simp only [getArrServers] at h
  split_ifs at h with hservers hconfig
  · rw [List.mem_singleton] at h
    subst h
    exact hconfig
  · simp at h
  · rw [List.mem_filter] at h
    have h := h.2
    simp only [Bool.and_eq_true, decide_eq_true_eq] at h
    exact ⟨h.1.2, h.2⟩

end Hygie
