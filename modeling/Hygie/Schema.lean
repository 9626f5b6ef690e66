/-
**The rows and settings the program works on.**

A row of `media_queue` is one title waiting for its deletion: a film, an episode, or a
*consolidated* entry that stands for a season or for a whole series.  The identifiers it carries
(`radarr_id`, `sonarr_id`, `sonarr_series_id`) mean something only on the server that issued them,
whose address is `arr_server_url`, and its library belongs to one media server.

Columns that may be `NULL` are `Option`s, an absent text is the empty string, and a moment is its
ISO-8601 text.

Main definitions:

* `Status` — the values of `media_queue.status`;
* `QueueEntry`, `QueueRow` — what the scanner inserts, and a stored row;
* `Library` — what the deletion reads of a row of `libraries`;
* `isConsolidatedRow` — whether a row stands for a group of episodes;
* `ArrServer`, `MediaServer`, `Config` — the configured servers and the settings.
-/

import Mathlib.Tactic

set_option relaxedAutoImplicit false
set_option autoImplicit false

namespace Hygie

/-- The values of `media_queue.status`. -/
inductive Status
  | pending
  | deleting
  | deleted
  | error
  deriving DecidableEq, Repr

/-- The contract of a queue entry, as the scanner builds it. -/
structure QueueEntry where
  embyId : String
  title : String
  mediaType : String
  libraryId : String
  libraryName : String
  filePath : String
  detectedAt : String
  deleteAt : String
  posterUrl : String := ""
  tmdbId : String := ""
  addedDate : Option String := none
  lastPlayed : Option String := none
  viewCount : ℤ := 0
  seerrId : Option ℤ := none
  seerrUserId : Option ℤ := none
  seerrUsername : String := ""
  seerrRequestUrl : String := ""
  radarrId : Option ℤ := none
  sonarrId : Option ℤ := none
  sonarrSeriesId : Option ℤ := none
  seasonNumber : Option ℤ := none
  arrServerUrl : Option String := none
  deriving DecidableEq, Repr

/-- A stored row of `media_queue`. -/
structure QueueRow extends QueueEntry where
  id : ℤ
  status : Status := .pending
  plexRatingKey : String := ""
  deriving DecidableEq, Repr

/-- What the deletion reads of a row of `libraries`. -/
structure Library where
  id : String
  serverId : Option String
  deriving DecidableEq, Repr

/-- A stored number that passes Python's truth test: neither `NULL` nor zero. -/
def truthyId (n : Option ℤ) : Option ℤ := n.filter (· ≠ 0)

@[simp] theorem truthyId_none : truthyId none = none := rfl

theorem truthyId_eq_some {n : Option ℤ} {i : ℤ} : truthyId n = some i ↔ n = some i ∧ i ≠ 0 := by
  simp [truthyId, Option.filter_eq_some_iff]

theorem truthyId_getD {n : Option ℤ} (h : n.getD 0 ≠ 0) : truthyId n = some (n.getD 0) := by
  cases n with
  | none => exact absurd rfl h
  | some i => exact truthyId_eq_some.2 ⟨rfl, h⟩

/-- A stored text that passes Python's truth test: neither `NULL` nor empty. -/
def truthyText (s : Option String) : Option String := s.filter (· ≠ "")

theorem truthyText_some {s : String} (h : s ≠ "") : truthyText (some s) = some s := by
  simp [truthyText, Option.filter_some, h]

/-- The default `"0"` of an identifier never leaves it empty. -/
theorem truthyText_getD_ne_empty (s : Option String) : (truthyText s).getD "0" ≠ "" := by
  rw [truthyText]
  cases hfilter : s.filter (· ≠ "") with
  | none => decide
  | some s => simpa using (Option.filter_eq_some_iff.1 hfilter).2

/-- `_is_consolidated_row`: the row carries a series and no episode file of its own. -/
def isConsolidatedRow (row : QueueEntry) : Bool :=
  (truthyId row.sonarrSeriesId).isSome && (truthyId row.sonarrId).isNone

/-! ### Settings -/

/-- A member of the setting `radarr_servers` or `sonarr_servers`. -/
structure ArrServer where
  url : String
  apiKey : String
  enabled : Bool := true
  deriving DecidableEq, Repr

/-- A member of the setting `media_servers`. -/
structure MediaServer where
  id : String
  url : String
  apiKey : String
  type : String := ""
  deriving DecidableEq, Repr

/-- The settings that the deletion and the scan read, and the two functions of the runtime whose
values no result depends on: `str.lower` and the decryption of stored secrets. -/
structure Config where
  lower : String → String := id
  decryptValue : String → String := id
  radarrServers : List ArrServer := []
  radarrUrl : String := ""
  radarrApiKey : String := ""
  sonarrServers : List ArrServer := []
  sonarrUrl : String := ""
  sonarrApiKey : String := ""
  mediaServers : List MediaServer := []
  embyUrl : String := ""
  embyApiKey : String := ""
  seerrUrl : String := ""
  seerrApiKey : String := ""
  qbitProxyUrl : String := ""
  qbitUrl : String := ""
  qbitUser : String := ""
  qbitPassword : String := ""
  qbitAction : String := ""
  qbitTag : String := ""

end Hygie
