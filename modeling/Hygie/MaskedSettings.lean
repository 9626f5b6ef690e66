/-
**The settings page and its masked secrets.**

The settings page never gets a secret: `GET /api/settings` sends `***` in its place, within the
lists of servers one for each key.  What comes back in its place is not stored; a key of a server
is restored from the stored server with the same identifier, the last one if there are several.
Nothing makes the identifiers of a list unique, neither a request nor an import from Seerr.

Main definitions:

* `getSettings`, `updateSettings` — the two requests, `postBack` — the request that sends back
  what the page shows;
* `SettingsStep`, `settingsRun` — requests and imports, one after the other;
* `PostBackKeeps` — the law, `KeysRestorable`, `StepAgrees` — the condition.

Main results:

* `postBackKeeps_iff` — when a table survives its page;
* `postBackKeeps_run_iff` — **exactly the runs whose tables all do**;
* `not_postBackKeeps_movedInstance` — an instance that moves in Seerr.
-/

import Hygie.OrderedDict
import Hygie.SeerrImport
import Hygie.SettingsStore
import Hygie.Startup
import Hygie.Thresholds

set_option relaxedAutoImplicit false
set_option autoImplicit false

namespace Hygie

open PyText SeerrImport

/-! ### The page -/

/-- A list of servers, as it is sent: the mask, or a text. -/
inductive SentServers
  | mask
  | text (t : JsonText)

/-- `GET /api/settings`; a setting without a row is missing. -/
structure SettingsPage where
  mediaServers : Option SentServers
  arrServers : ArrKind → Option SentServers
  text : String → Option String

/-- `s.get("api_key", "")`. -/
def apiKeyOf (s : Json) : Json := (s.get? "api_key").getD (.str "")

/-- `s["api_key"] = key`, for an entry that has a key. -/
def setApiKey (key : Json) : Json → Json
  | .obj fields => .obj (fields.map fun f => if f.1 = "api_key" then (f.1, key) else f)
  | j => j

/-- The loop over the servers: the mask for a key that is set. -/
def maskServer (s : Json) : Json :=
  if (apiKeyOf s).truthy then setApiKey (.str settingsMask) s else s

/-- `get_settings`, for a list of servers: the mask where the loop raises. -/
def maskServers : JsonText → SentServers
  | .empty => .text .empty
  | .json (.arr items) =>
      if items.all Json.isObj then .text (.json (.arr (items.map maskServer))) else .mask
  -- a loop over nothing
  | .json (.obj []) => .text (.json (.obj []))
  | .json (.str "") => .text (.json (.str ""))
  | _ => .mask

/-- `get_settings`. -/
def getSettings (settings : SettingsTable) : SettingsPage where
  mediaServers := settings.mediaServers.map maskServers
  arrServers kind := (settings.arrServers kind).map maskServers
  text key := (settings.text key).map fun value =>
    if key ∈ sensitiveKeys ∧ value ≠ "" then settingsMask else value

/-! ### The request -/

/-- The fields of `SettingsUpdate` that hold a text. -/
def settingsUpdateFields : List String :=
  ["emby_leaving_soon_collection", "emby_leaving_soon_days", "emby_leaving_soon_overlay",
    "radarr_url", "radarr_api_key", "sonarr_url", "sonarr_api_key", "seerr_url", "seerr_api_key",
    "seerr_external_url", "qbit_url", "qbit_proxy_url", "qbit_user", "qbit_password",
    "qbit_action", "qbit_tag", "discord_webhook", "discord_webhook_alerts",
    "discord_notif_thresholds", "discord_alert_deletion_error",
    "discord_alert_deletion_error_mention", "discord_alert_deletion_error_msg",
    "discord_alert_scan_failure", "discord_alert_scan_failure_mention",
    "discord_alert_scan_failure_msg", "discord_alert_seerr_failure",
    "discord_alert_seerr_failure_mention", "discord_alert_seerr_failure_msg",
    "discord_alert_error_threshold", "max_parallel_library_scans", "dry_run", "log_level",
    "deleted_retention_days", "log_retention_days", "job_history_retention_days",
    "scan_interval_minutes", "deletion_check_interval_minutes", "media_server_type",
    "ui_language", "backup_path", "backup_interval_hours", "backup_retention_count",
    "backup_enabled", "plex_tv_token", "plex_webhook_secret", "plex_overlay_enabled",
    "public_dashboard_enabled", "public_dashboard_slug", "public_dashboard_password"]

/-- `SettingsUpdate`, without the fields that are `None`. -/
structure SettingsUpdate where
  arrServers : ArrKind → Option SentServers
  text : String → Option String
  known : ∀ key, (text key).isSome → key ∈ settingsUpdateFields

/-- The page, sent back; what is no field of the request is left out. -/
def postBack (page : SettingsPage) : SettingsUpdate where
  arrServers := page.arrServers
  text key := if key ∈ settingsUpdateFields then page.text key else none
  known key h := by
    by_contra hkey
    rw [if_neg hkey] at h
    cases h

/-- `_URL_SETTINGS`. -/
def urlSettings : List String :=
  ["radarr_url", "sonarr_url", "seerr_url", "seerr_external_url", "qbit_url", "qbit_proxy_url"]

/-- `_FORBIDDEN_BACKUP_PREFIXES`. -/
def forbiddenBackupPrefixes : List String :=
  ["/etc", "/root", "/proc", "/sys", "/dev", "/run", "/boot", "/bin", "/sbin", "/usr/bin",
    "/usr/sbin"]

/-- `str(PurePosixPath(path))`: without empty parts and parts `.`; two slashes in front stay two. -/
def purePosixPath (path : String) : String :=
  let parts := ((path.toList.splitOn '/').map String.ofList).filter fun p => p ≠ "" ∧ p ≠ "."
  let root := if startsWith path "//" ∧ ¬ startsWith path "///" then "//"
    else if startsWith path "/" then "/" else ""
  let joined := root ++ "/".intercalate parts
  if joined = "" then "." else joined

/-- `_validate_backup_path`: the message of its `ValueError`, if it raises. -/
def validateBackupPath (path : String) : Option String :=
  if ['.', '.'] <:+: path.toList then some "Backup path must not contain '..'"
  else
    (forbiddenBackupPrefixes.find? fun dir =>
      purePosixPath path = dir ∨ startsWith (purePosixPath path) (dir ++ "/")).map fun dir =>
        "Backup path cannot target system directory: " ++ dir

-- `urlparse(value).scheme.lower()`, or nothing where `urlparse` raises
variable (scheme : String → Option String)

/-- The check of a setting that holds an address. -/
def checkUrlSetting (key value : String) : Except ThresholdError Unit :=
  if value = "" ∨ (key ∈ sensitiveKeys ∧ value = settingsMask) then .ok ()
  else
    match scheme value with
    | none => .error .valueError
    | some scheme =>
        if scheme = "http" ∨ scheme = "https" then .ok ()
        else .error (.http 422 (key ++ ": le schéma doit être http ou https"))

/-- The check of a backup path. -/
def checkBackupPath (value : String) : Except ThresholdError Unit :=
  if strip value = "" then .ok ()
  else
    match validateBackupPath (strip value) with
    | some message => .error (.http 422 ("backup_path: " ++ message))
    | none => .ok ()

/-- The check of a setting that is sent. -/
def checkSetting (key value : String) : Except ThresholdError Unit :=
  if key ∈ urlSettings then checkUrlSetting scheme key value
  else if key = "discord_notif_thresholds" then checkThresholds value
  else if key = "backup_path" then checkBackupPath value
  else .ok ()

/-- What is checked, in this order; the addresses are a set and have none. -/
def checkedSettings : List String := urlSettings ++ ["discord_notif_thresholds", "backup_path"]

/-- The checks of a request. -/
def checkUpdate (body : SettingsUpdate) : Except ThresholdError Unit :=
  checkedSettings.forM fun key =>
    match body.text key with
    | some value => checkSetting scheme key value
    | none => .ok ()

/-! ### The keys that are restored -/

/-- `s.get("api_key") == "***"`. -/
def isMasked (s : Json) : Bool :=
  match s.get? "api_key" with
  | some (.str key) => key = settingsMask
  | _ => false

/-- `json.loads(existing_raw) or []`, as a loop sees it; nothing where it raises. -/
def loadedServers : JsonText → Option (List Json)
  | .empty => some []
  | .damaged => none
  | .json (.arr items) => some items
  | .json j => if j.truthy then none else some []

/-- `existing_by_id`; nothing where it raises. -/
def existingById (existing : JsonText) : Option (List (DictKey × Json)) :=
  match loadedServers existing with
  | none => none
  | some items =>
      if items.all fun s => s.isObj && (entryId s).dictKey.isSome then
        some (OrderedDict.ofWrites
          (items.filterMap fun s => (entryId s).dictKey.map fun id => (id, s)))
      else none

/-- The stored entry with the identifier of an entry, or an empty one. -/
def existingEntry (byId : List (DictKey × Json)) (s : Json) : Json :=
  ((entryId s).dictKey.bind (OrderedDict.value byId)).getD (.obj [])

/-- The key of an entry is restored. -/
def restoreServer (byId : List (DictKey × Json)) (s : Json) : Json :=
  if isMasked s then setApiKey (apiKeyOf (existingEntry byId s)) s else s

/-- The loop over the entries that are sent does not raise. -/
def canRestore (s : Json) : Bool := s.isObj && (!isMasked s || (entryId s).dictKey.isSome)

/-- `incoming[arr_key]`, after the keys are restored: as it was where this raises. -/
def restoreServers (existing : JsonText) (sent : JsonText) : JsonText :=
  match existingById existing, sent with
  | some _, .empty => .json (.arr [])
  | some byId, .json (.arr items) =>
      if items.all canRestore then .json (.arr (items.map (restoreServer byId))) else sent
  | _, _ => sent

/-- `set_setting`, for a list of servers that is sent; the mask is not stored. -/
def storeServers (existing : Option JsonText) : Option SentServers → Option JsonText
  | some (.text sent) => some (restoreServers (existing.getD .empty) sent)
  | _ => existing

/-- The settings are stored, one after the other; a mask is not. -/
def writeUpdate (settings : SettingsTable) (body : SettingsUpdate) : SettingsTable :=
  { settings with
    arrServers := fun kind => storeServers (settings.arrServers kind) (body.arrServers kind)
    text := fun key =>
      match body.text key with
      | some value =>
          if key ∈ sensitiveKeys ∧ value = settingsMask then settings.text key else some value
      | none => settings.text key }

/-- `update_settings`; nothing is stored where it is refused. -/
def updateSettings (settings : SettingsTable) (body : SettingsUpdate) :
    Except ThresholdError SettingsTable :=
  match checkUpdate scheme body with
  | .error e => .error e
  | .ok () => .ok (writeUpdate settings body)

/-! ### The fields of an entry -/

@[simp] theorem isObj_setApiKey (key s : Json) : (setApiKey key s).isObj = s.isObj := by
  cases s <;> rfl

theorem get?_setApiKey (key s : Json) (name : String) :
    (setApiKey key s).get? name =
      if name = "api_key" then (s.get? name).map fun _ => key else s.get? name := by
  cases s with
  | obj fields =>
      simp only [setApiKey, Json.get?, List.find?_map, Option.map_map]
      have hname : ((fun f : String × Json => decide (f.1 = name)) ∘
          fun f => if f.1 = "api_key" then (f.1, key) else f) = fun f => decide (f.1 = name) := by
        funext f
        rw [Function.comp_apply]
        split_ifs <;> rfl
      rw [hname]
      cases hfind : fields.find? fun f => decide (f.1 = name) with
      | none => simp
      | some f =>
          have hf : f.1 = name := by simpa using List.find?_some hfind
          simp only [Option.map_some, Function.comp_apply, hf]
          split_ifs <;> rfl
  | null => simp [setApiKey, Json.get?]
  | bool => simp [setApiKey, Json.get?]
  | num => simp [setApiKey, Json.get?]
  | str => simp [setApiKey, Json.get?]
  | arr => simp [setApiKey, Json.get?]

@[simp] theorem entryId_setApiKey (key s : Json) : entryId (setApiKey key s) = entryId s := by
  rw [entryId, get?_setApiKey, if_neg (by decide)]
  rfl

/-- An entry whose key is set has a field for it. -/
theorem isSome_of_truthy {s : Json} (h : (apiKeyOf s).truthy = true) :
    (s.get? "api_key").isSome := by
  cases hget : s.get? "api_key" with
  | some key => rfl
  | none =>
      rw [apiKeyOf, hget] at h
      exact absurd h (by decide)

theorem get?_eq_some_apiKeyOf {s : Json} (h : (s.get? "api_key").isSome) :
    s.get? "api_key" = some (apiKeyOf s) := by
  obtain ⟨key, hkey⟩ := Option.isSome_iff_exists.1 h
  rw [apiKeyOf, hkey, Option.getD_some]

theorem get?_setApiKey_key {key s : Json} (h : (s.get? "api_key").isSome) :
    (setApiKey key s).get? "api_key" = some key := by
  rw [get?_setApiKey, if_pos rfl, get?_eq_some_apiKeyOf h, Option.map_some]

theorem isMasked_iff {s : Json} : isMasked s = true ↔ apiKeyOf s = .str settingsMask := by
  unfold isMasked apiKeyOf
  cases s.get? "api_key" with
  | none => simp [settingsMask]
  | some key =>
      cases key with
      | str text => simp
      | null => simp
      | bool => simp
      | num => simp
      | arr => simp
      | obj => simp

/-! ### The law -/

/-- The keys of the entries of a list. -/
def serverSecrets : JsonText → List (Option Json)
  | .json (.arr items) => items.map fun s => s.get? "api_key"
  | _ => []

/-- The two tables hold the same secrets. -/
structure SameSecrets (settings settings' : SettingsTable) : Prop where
  mediaServers : settings'.mediaServers = settings.mediaServers
  arrServers : ∀ kind,
    serverSecrets (settings'.getServers kind) = serverSecrets (settings.getServers kind)
  text : ∀ key ∈ sensitiveKeys, settings'.text key = settings.text key

/-- The page can be sent back, and no secret changes. -/
def PostBackKeeps (settings : SettingsTable) : Prop :=
  ∃ settings', updateSettings scheme settings (postBack (getSettings settings)) = .ok settings' ∧
    SameSecrets settings settings'

/-- The last entry with the identifier. -/
def lastById (items : List Json) (id : Option DictKey) : Option Json :=
  items.reverse.find? fun s => (entryId s).dictKey = id

/-- The keys of a list survive the page.  An identifier that cannot be hashed keeps every key of
the list from being restored. -/
structure KeysRestorable (keyOf : Json → Json) (items : List Json) : Prop where
  agree : (∀ s ∈ items, (entryId s).dictKey.isSome) → ∀ s ∈ items, (keyOf s).truthy →
    ∀ last, lastById items (entryId s).dictKey = some last → keyOf last = keyOf s
  unhashable : (∃ s ∈ items, (entryId s).dictKey = none) → ∀ s ∈ items, (keyOf s).truthy →
    keyOf s = .str settingsMask

/-- The condition on a list that is stored; a list with an entry that is no object is masked as a
whole. -/
def Restorable : JsonText → Prop
  | .json (.arr items) => (∀ s ∈ items, s.isObj) → KeysRestorable apiKeyOf items
  | _ => True

theorem keysRestorable_nil (keyOf : Json → Json) : KeysRestorable keyOf [] := by
  refine ⟨fun _ s hs => absurd hs List.not_mem_nil, ?_⟩
  rintro - s hs
  exact absurd hs List.not_mem_nil

/-! ### A list that is sent back -/

theorem lookup_reverse_filterMap (items : List Json) (id : DictKey) :
    OrderedDict.value (OrderedDict.ofWrites
        (items.filterMap fun s => (entryId s).dictKey.map fun id => (id, s))) id =
      lastById items (some id) := by
  rw [OrderedDict.value_ofWrites, ← List.filterMap_reverse, lastById]
  induction items.reverse with
  | nil => rfl
  | cons s items ih =>
      rw [List.find?_cons]
      cases hid : (entryId s).dictKey with
      | none =>
          rw [List.filterMap_cons_none (by rw [hid]; rfl), ih]
          rfl
      | some id' =>
          rw [List.filterMap_cons_some (by rw [hid]; rfl), OrderedDict.value, List.find?_cons]
          by_cases heq : id' = id
          · rw [decide_eq_true heq, decide_eq_true (congrArg some heq)]
            rfl
          · rw [decide_eq_false heq, decide_eq_false fun h => heq (Option.some.inj h)]
            exact ih

/-- An entry of the list is looked up: the last with its identifier. -/
theorem existingEntry_eq {items : List Json} {existing : JsonText} {byId : List (DictKey × Json)}
    (hloaded : loadedServers existing = some items) (hbyId : existingById existing = some byId)
    {s : Json} (hid : (entryId s).dictKey.isSome) :
    existingEntry byId s = (lastById items (entryId s).dictKey).getD (.obj []) := by
  obtain ⟨id, hid⟩ := Option.isSome_iff_exists.1 hid
  rw [existingById, hloaded] at hbyId
  dsimp only at hbyId
  split_ifs at hbyId
  rw [← Option.some.inj hbyId, existingEntry, hid, Option.bind_some, lookup_reverse_filterMap]

theorem lastById_isSome {items : List Json} {s : Json} (hs : s ∈ items) :
    (lastById items (entryId s).dictKey).isSome := by
  rw [lastById, List.find?_isSome]
  exact ⟨s, List.mem_reverse.2 hs, decide_eq_true rfl⟩

theorem existingById_isSome_iff {existing : JsonText} {items : List Json}
    (hloaded : loadedServers existing = some items) (hobj : ∀ s ∈ items, s.isObj) :
    (existingById existing).isSome ↔ ∀ s ∈ items, (entryId s).dictKey.isSome := by
  rw [existingById, hloaded]
  dsimp only
  split_ifs with hall
  · rw [List.all_eq_true] at hall
    refine ⟨fun _ s hs => ?_, fun _ => rfl⟩
    have h := hall s hs
    rw [Bool.and_eq_true] at h
    exact h.2
  · constructor
    · intro h
      cases h
    intro h
    refine absurd ?_ hall
    rw [List.all_eq_true]
    intro s hs
    rw [Bool.and_eq_true]
    exact ⟨hobj s hs, h s hs⟩

/-- A masked entry is restored with the key of the entry that is looked up. -/
theorem get?_restore_mask {byId : List (DictKey × Json)} {s : Json} :
    (restoreServer byId (maskServer s)).get? "api_key" = s.get? "api_key" ↔
      ((apiKeyOf s).truthy → apiKeyOf (existingEntry byId s) = apiKeyOf s) := by
  unfold maskServer
  split_ifs with hkey
  · have hsome := isSome_of_truthy hkey
    have hmasked : isMasked (setApiKey (.str settingsMask) s) = true := by
      rw [isMasked_iff, apiKeyOf, get?_setApiKey_key hsome, Option.getD_some]
    have hentry : existingEntry byId (setApiKey (.str settingsMask) s) = existingEntry byId s := by
      rw [existingEntry, existingEntry, entryId_setApiKey]
    have hagain : ((setApiKey (.str settingsMask) s).get? "api_key").isSome := by
      rw [get?_setApiKey_key hsome]
      rfl
    rw [restoreServer, if_pos hmasked, get?_setApiKey_key hagain, hentry,
      get?_eq_some_apiKeyOf hsome, Option.some.injEq]
    exact ⟨fun h _ => h, fun h => h hkey⟩
  · -- a key that is not set is neither masked nor restored
    have hmasked : isMasked s = false := by
      rw [Bool.eq_false_iff]
      intro h
      rw [isMasked_iff.1 h] at hkey
      exact hkey (by decide)
    rw [restoreServer, hmasked, if_neg (by decide)]
    exact ⟨fun _ h => absurd h hkey, fun _ => rfl⟩

theorem get?_mask {s : Json} :
    (maskServer s).get? "api_key" = s.get? "api_key" ↔
      ((apiKeyOf s).truthy → apiKeyOf s = .str settingsMask) := by
  unfold maskServer
  split_ifs with hkey
  · have hsome := isSome_of_truthy hkey
    rw [get?_setApiKey_key hsome, get?_eq_some_apiKeyOf hsome, Option.some.injEq]
    exact ⟨fun h _ => h.symm, fun h => (h hkey).symm⟩
  · exact ⟨fun _ h => absurd h hkey, fun _ => rfl⟩

@[simp] theorem isObj_maskServer (s : Json) : (maskServer s).isObj = s.isObj := by
  unfold maskServer
  split_ifs
  · exact isObj_setApiKey _ s
  · rfl

@[simp] theorem entryId_maskServer (s : Json) : entryId (maskServer s) = entryId s := by
  unfold maskServer
  split_ifs
  · exact entryId_setApiKey _ s
  · rfl

theorem restoreServers_arr {existing : JsonText} {byId : List (DictKey × Json)}
    (hbyId : existingById existing = some byId) (items : List Json) :
    restoreServers existing (.json (.arr items)) =
      if items.all canRestore then .json (.arr (items.map (restoreServer byId)))
      else .json (.arr items) := by
  unfold restoreServers
  rw [hbyId]

/-- Where the loop over the stored entries raises, what is sent stays as it is. -/
theorem restoreServers_none {existing : JsonText} (hbyId : existingById existing = none)
    (sent : JsonText) : restoreServers existing sent = sent := by
  unfold restoreServers
  rw [hbyId]

/-- A list of objects that is masked and sent back. -/
theorem serverSecrets_restore_mask {items : List Json} (hobj : ∀ s ∈ items, s.isObj) :
    serverSecrets (restoreServers (.json (.arr items)) (.json (.arr (items.map maskServer)))) =
        serverSecrets (.json (.arr items)) ↔
      KeysRestorable apiKeyOf items := by
  have hsome := @existingById_isSome_iff (.json (.arr items)) items rfl hobj
  cases hbyId : existingById (.json (.arr items)) with
  | some byId =>
      rw [hbyId] at hsome
      have hids := hsome.1 rfl
      have hcan : (items.map maskServer).all canRestore = true := by
        rw [List.all_eq_true]
        intro sent hsent
        obtain ⟨s, hs, rfl⟩ := List.mem_map.1 hsent
        rw [canRestore, isObj_maskServer, entryId_maskServer, hobj s hs, hids s hs, Bool.or_true]
        rfl
      rw [restoreServers_arr hbyId, if_pos hcan, serverSecrets, serverSecrets, List.map_map,
        List.map_map, List.map_inj_left]
      constructor
      · intro h
        refine ⟨fun _ s hs hkey last hlast => ?_, ?_⟩
        · have hrestored := get?_restore_mask.1 (h s hs) hkey
          rw [existingEntry_eq rfl hbyId (hids s hs), hlast, Option.getD_some] at hrestored
          exact hrestored
        · rintro ⟨s, hs, hnone⟩
          have hid := hids s hs
          rw [hnone] at hid
          cases hid
      · intro h s hs
        refine get?_restore_mask.2 fun hkey => ?_
        obtain ⟨last, hlast⟩ := Option.isSome_iff_exists.1 (lastById_isSome hs)
        rw [existingEntry_eq rfl hbyId (hids s hs), hlast, Option.getD_some]
        exact h.agree hids s hs hkey last hlast
  | none =>
      rw [hbyId] at hsome
      have hids : ∃ s ∈ items, (entryId s).dictKey = none := by
        by_contra hall
        push Not at hall
        cases hsome.2 fun s hs => Option.isSome_iff_ne_none.2 (hall s hs)
      -- the masks are stored as they are
      rw [restoreServers_none hbyId, serverSecrets, serverSecrets, List.map_map, List.map_inj_left]
      constructor
      · intro h
        refine ⟨fun hall => ?_, fun _ s hs => get?_mask.1 (h s hs)⟩
        cases hsome.2 hall
      · intro h s hs
        exact get?_mask.2 (h.unhashable hids s hs)

/-- A list that is masked and sent back. -/
theorem serverSecrets_sendBack (t : JsonText) :
    serverSecrets ((storeServers (some t) (some (maskServers t))).getD .empty) =
        serverSecrets t ↔ Restorable t := by
  cases t with
  | empty => exact ⟨fun _ => trivial, fun _ => rfl⟩
  | damaged => exact ⟨fun _ => trivial, fun _ => rfl⟩
  | json j =>
      cases j with
      | arr items =>
          by_cases hall : items.all Json.isObj
          · have hobj := List.all_eq_true.1 hall
            rw [maskServers, if_pos hall, storeServers, Option.getD_some, Option.getD_some,
              serverSecrets_restore_mask hobj]
            exact ⟨fun h _ => h, fun h => h hobj⟩
          · rw [maskServers, if_neg hall]
            refine ⟨fun _ hobj => absurd (List.all_eq_true.2 hobj) hall, fun _ => rfl⟩
      | null => exact ⟨fun _ => trivial, fun _ => rfl⟩
      | bool b => exact ⟨fun _ => trivial, fun _ => rfl⟩
      | num q => exact ⟨fun _ => trivial, fun _ => rfl⟩
      | str text =>
          refine ⟨fun _ => trivial, fun _ => ?_⟩
          by_cases hempty : text = ""
          · subst hempty
            rfl
          · have hmask : maskServers (.json (.str text)) = .mask := by
              simp [maskServers, hempty]
            rw [hmask]
            rfl
      | obj fields =>
          cases fields with
          | nil => exact ⟨fun _ => trivial, fun _ => rfl⟩
          | cons f fields => exact ⟨fun _ => trivial, fun _ => rfl⟩

/-! ### The page, sent back -/

theorem forM_eq_ok {α ε : Type} {f : α → Except ε Unit} {l : List α} :
    l.forM f = .ok () ↔ ∀ a ∈ l, f a = .ok () := by
  induction l with
  | nil => exact ⟨fun _ _ h => absurd h List.not_mem_nil, fun _ => rfl⟩
  | cons a l ih =>
      rw [List.forall_mem_cons, ← ih]
      change (f a >>= fun _ => l.forM f) = .ok () ↔ _
      cases hf : f a with
      | error e =>
          constructor
          · intro h
            cases h
          · rintro ⟨h, -⟩
            cases h
      | ok =>
          exact ⟨fun h => ⟨rfl, h⟩, fun h => h.2⟩

/-- A request is accepted when every setting that it sends passes its check. -/
theorem checkUpdate_eq_ok {body : SettingsUpdate} :
    checkUpdate scheme body = .ok () ↔ ∀ key ∈ checkedSettings, ∀ value,
      body.text key = some value → checkSetting scheme key value = .ok () := by
  unfold checkUpdate
  rw [forM_eq_ok]
  refine forall₂_congr fun key _ => ?_
  cases body.text key with
  | none => exact ⟨fun _ value h => (nomatch h), fun _ => rfl⟩
  | some value => exact ⟨fun h value' hvalue => Option.some.inj hvalue ▸ h, fun h => h value rfl⟩

/-- Every setting that is checked and shown passes its check. -/
def TextsValid (settings : SettingsTable) : Prop :=
  ∀ key ∈ checkedSettings, key ∉ sensitiveKeys → ∀ value, settings.text key = some value →
    checkSetting scheme key value = .ok ()

theorem mem_urlSettings_of_sensitive {key : String} (hkey : key ∈ checkedSettings)
    (hsensitive : key ∈ sensitiveKeys) : key ∈ urlSettings := by
  revert hsensitive
  revert key
  decide

/-- The page passes the checks. -/
theorem checkUpdate_postBack {settings : SettingsTable} (hvalid : TextsValid scheme settings) :
    checkUpdate scheme (postBack (getSettings settings)) = .ok () := by
  rw [checkUpdate_eq_ok]
  intro key hkey value hvalue
  simp only [postBack, getSettings] at hvalue
  split_ifs at hvalue with hfield
  obtain ⟨stored, hstored, hshown⟩ := Option.map_eq_some_iff.1 hvalue
  by_cases hsensitive : key ∈ sensitiveKeys
  · -- a secret that is an address: masked, or empty
    have hpass : value = "" ∨ (key ∈ sensitiveKeys ∧ value = settingsMask) := by
      split_ifs at hshown with hmask
      · exact .inr ⟨hsensitive, hshown.symm⟩
      · rw [not_and, not_not] at hmask
        exact .inl (hshown ▸ hmask hsensitive)
    rw [checkSetting, if_pos (mem_urlSettings_of_sensitive hkey hsensitive), checkUrlSetting,
      if_pos hpass]
  · rw [if_neg fun h => hsensitive h.1] at hshown
    exact hvalid key hkey hsensitive value (hshown ▸ hstored)

/-- The texts stay as they are. -/
theorem text_sendBack (settings : SettingsTable) (key : String) :
    (writeUpdate settings (postBack (getSettings settings))).text key = settings.text key := by
  simp only [writeUpdate, postBack, getSettings]
  by_cases hfield : key ∈ settingsUpdateFields
  · rw [if_pos hfield]
    cases hstored : settings.text key with
    | none => rfl
    | some value =>
        simp only [Option.map_some]
        by_cases hmask : key ∈ sensitiveKeys ∧ value ≠ ""
        · rw [if_pos hmask, if_pos ⟨hmask.1, rfl⟩]
        · have hkept : ¬ (key ∈ sensitiveKeys ∧ value = settingsMask) := by
            rintro ⟨hsensitive, rfl⟩
            exact hmask ⟨hsensitive, by decide⟩
          rw [if_neg hmask, if_neg hkept]
  · rw [if_neg hfield]

/-- When a table survives its page. -/
theorem postBackKeeps_iff {settings : SettingsTable} (hvalid : TextsValid scheme settings) :
    PostBackKeeps scheme settings ↔ ∀ kind, Restorable (settings.getServers kind) := by
  have hupdate : updateSettings scheme settings (postBack (getSettings settings)) =
      .ok (writeUpdate settings (postBack (getSettings settings))) := by
    rw [updateSettings, checkUpdate_postBack scheme hvalid]
  have hservers (kind : ArrKind) :
      serverSecrets ((writeUpdate settings (postBack (getSettings settings))).getServers kind) =
          serverSecrets (settings.getServers kind) ↔
        Restorable (settings.getServers kind) := by
    simp only [SettingsTable.getServers, writeUpdate, postBack, getSettings]
    cases settings.arrServers kind with
    | none => exact ⟨fun _ => trivial, fun _ => rfl⟩
    | some t => exact serverSecrets_sendBack t
  constructor
  · rintro ⟨settings', hstored, hsame⟩ kind
    rw [hupdate] at hstored
    cases hstored
    exact (hservers kind).1 (hsame.arrServers kind)
  · intro h
    exact ⟨_, hupdate, rfl, fun kind => (hservers kind).2 (h kind),
      fun key _ => text_sendBack settings key⟩

/-! ### A list that somebody sends -/

/-- The key that an entry is stored with: its own or, for a mask, that of the stored entry with its
identifier. -/
def restoredKey (existing : JsonText) (items : List Json) (s : Json) : Json :=
  match existingById existing with
  | some byId =>
      if items.all canRestore && isMasked s then apiKeyOf (existingEntry byId s) else apiKeyOf s
  | none => apiKeyOf s

/-- The entries that are sent with one identifier get one key. -/
def SentAgrees (existing : JsonText) : JsonText → Prop
  | .json (.arr items) =>
      (∀ s ∈ items, s.isObj) → KeysRestorable (restoredKey existing items) items
  | _ => True

theorem lastById_map {g : Json → Json} (hid : ∀ s, entryId (g s) = entryId s) (items : List Json)
    (id : Option DictKey) : lastById (items.map g) id = (lastById items id).map g := by
  rw [lastById, lastById, ← List.map_reverse, List.find?_map]
  simp only [Function.comp_def, hid]

/-- The keys of a list whose entries are changed, but for their identifiers. -/
theorem keysRestorable_map {g keyOf : Json → Json} (hid : ∀ s, entryId (g s) = entryId s)
    (items : List Json) :
    KeysRestorable keyOf (items.map g) ↔ KeysRestorable (fun s => keyOf (g s)) items := by
  constructor
  · intro h
    refine ⟨fun hids s hs hkey last hlast => ?_, ?_⟩
    · refine h.agree ?_ (g s) (List.mem_map_of_mem hs) hkey (g last) ?_
      · rw [List.forall_mem_map]
        intro s hs
        rw [hid]
        exact hids s hs
      · rw [lastById_map hid, hid, hlast, Option.map_some]
    · rintro ⟨s, hs, hnone⟩ s' hs'
      exact h.unhashable ⟨g s, List.mem_map_of_mem hs, by rw [hid, hnone]⟩ (g s')
        (List.mem_map_of_mem hs')
  · intro h
    refine ⟨fun hids => ?_, ?_⟩
    · rw [List.forall_mem_map] at hids ⊢
      intro s hs hkey last hlast
      rw [lastById_map hid, hid] at hlast
      obtain ⟨stored, hstored, rfl⟩ := Option.map_eq_some_iff.1 hlast
      exact h.agree (fun s hs => hid s ▸ hids s hs) s hs hkey stored hstored
    · rintro ⟨sent, hsent, hnone⟩
      obtain ⟨s, hs, rfl⟩ := List.mem_map.1 hsent
      rw [List.forall_mem_map]
      exact h.unhashable ⟨s, hs, hid s ▸ hnone⟩

@[simp] theorem isObj_restoreServer (byId : List (DictKey × Json)) (s : Json) :
    (restoreServer byId s).isObj = s.isObj := by
  unfold restoreServer
  split_ifs
  · exact isObj_setApiKey _ s
  · rfl

@[simp] theorem entryId_restoreServer (byId : List (DictKey × Json)) (s : Json) :
    entryId (restoreServer byId s) = entryId s := by
  unfold restoreServer
  split_ifs
  · exact entryId_setApiKey _ s
  · rfl

theorem apiKeyOf_restoreServer (byId : List (DictKey × Json)) (s : Json) :
    apiKeyOf (restoreServer byId s) =
      if isMasked s then apiKeyOf (existingEntry byId s) else apiKeyOf s := by
  unfold restoreServer
  split_ifs with hmasked
  · have hsome : (s.get? "api_key").isSome := by
      refine isSome_of_truthy ?_
      rw [isMasked_iff.1 hmasked]
      decide
    rw [apiKeyOf, get?_setApiKey_key hsome, Option.getD_some]
  · rfl

/-- The keys that the entries of a list are stored with. -/
theorem restorable_restore_arr (existing : JsonText) (items : List Json) :
    Restorable (restoreServers existing (.json (.arr items))) ↔
      ((∀ s ∈ items, s.isObj) → KeysRestorable (restoredKey existing items) items) := by
  cases hbyId : existingById existing with
  | none =>
      have hkey : restoredKey existing items = apiKeyOf := by
        funext s
        rw [restoredKey, hbyId]
      rw [restoreServers_none hbyId, hkey]
      exact Iff.rfl
  | some byId =>
      rw [restoreServers_arr hbyId]
      split_ifs with hcan
      · have hkey : restoredKey existing items = fun s => apiKeyOf (restoreServer byId s) := by
          funext s
          rw [restoredKey, hbyId, apiKeyOf_restoreServer]
          dsimp only
          rw [hcan, Bool.true_and]
        rw [hkey, ← keysRestorable_map (entryId_restoreServer byId), Restorable,
          List.forall_mem_map]
        simp only [isObj_restoreServer]
      · have hkey : restoredKey existing items = apiKeyOf := by
          funext s
          rw [restoredKey, hbyId]
          dsimp only
          rw [Bool.eq_false_iff.2 hcan, Bool.false_and, if_neg (by decide)]
        rw [hkey]
        exact Iff.rfl

/-- What is stored for a text that is sent. -/
theorem restorable_restoreServers (existing sent : JsonText) :
    Restorable (restoreServers existing sent) ↔ SentAgrees existing sent := by
  cases sent with
  | json j =>
      cases j with
      | arr items => exact restorable_restore_arr existing items
      | _ =>
          unfold restoreServers
          cases existingById existing <;> exact Iff.rfl
  | empty =>
      refine ⟨fun _ => trivial, fun _ => ?_⟩
      unfold restoreServers
      cases existingById existing with
      | none => exact trivial
      | some byId => exact fun _ => keysRestorable_nil apiKeyOf
  | damaged =>
      unfold restoreServers
      cases existingById existing <;> exact Iff.rfl

/-! ### An import -/

/-- The servers that are imported with an identifier that is there, or twice, have its key. -/
structure ImportAgrees (existing : List Json) (new : List ImportedServer) : Prop where
  agree : (∀ s ∈ existing, (entryId s).dictKey.isSome) → ∀ srv ∈ new, srv.apiKey.truthy →
    ∀ last, (lastById existing (some (.str srv.id))).or
        (lastById (new.map ImportedServer.toJson) (some (.str srv.id))) = some last →
      apiKeyOf last = srv.apiKey
  unhashable : (∃ s ∈ existing, (entryId s).dictKey = none) → ∀ srv ∈ new, srv.apiKey.truthy →
    srv.apiKey = .str settingsMask

theorem apiKeyOf_toJson (srv : ImportedServer) : apiKeyOf srv.toJson = srv.apiKey := rfl

/-- The servers that are imported, in front of those that are there. -/
theorem keysRestorable_append {existing : List Json} {new : List ImportedServer}
    (hexisting : KeysRestorable apiKeyOf existing) :
    KeysRestorable apiKeyOf (new.map ImportedServer.toJson ++ existing) ↔
      ImportAgrees existing new := by
  have hlast (id : Option DictKey) :
      lastById (new.map ImportedServer.toJson ++ existing) id =
        (lastById existing id).or (lastById (new.map ImportedServer.toJson) id) := by
    rw [lastById, lastById, lastById, List.reverse_append, List.find?_append]
  constructor
  · intro h
    refine ⟨fun hids srv hsrv hkey last hfound => ?_, ?_⟩
    · refine h.agree ?_ srv.toJson (List.mem_append_left _ (List.mem_map_of_mem hsrv)) hkey last ?_
      · rw [List.forall_mem_append, List.forall_mem_map]
        exact ⟨fun _ _ => rfl, hids⟩
      · rw [hlast]
        exact hfound
    · rintro ⟨s, hs, hnone⟩ srv hsrv
      exact h.unhashable ⟨s, List.mem_append_right _ hs, hnone⟩ srv.toJson
        (List.mem_append_left _ (List.mem_map_of_mem hsrv))
  · intro h
    refine ⟨fun hids => ?_, ?_⟩
    · rw [List.forall_mem_append] at hids ⊢
      constructor
      · rw [List.forall_mem_map]
        intro srv hsrv hkey last hfound
        rw [hlast] at hfound
        exact h.agree hids.2 srv hsrv hkey last hfound
      · intro s hs hkey last hfound
        -- the last entry with the identifier is one of the old ones
        rw [hlast, Option.or_of_isSome (lastById_isSome hs)] at hfound
        exact hexisting.agree hids.2 s hs hkey last hfound
    · rintro ⟨s, hs, hnone⟩
      rcases List.mem_append.1 hs with hnew | hold
      · obtain ⟨srv, -, rfl⟩ := List.mem_map.1 hnew
        cases hnone
      · rw [List.forall_mem_append, List.forall_mem_map]
        exact ⟨h.unhashable ⟨s, hold, hnone⟩, hexisting.unhashable ⟨s, hold, hnone⟩⟩

theorem existingServers_cases {t : JsonText} {existing : List Json}
    (h : existingServers t = some existing) : t = .json (.arr existing) ∨ existing = [] := by
  unfold existingServers at h
  split at h
  next items => exact .inl (by rw [Option.some.inj h])
  next =>
    split_ifs at h
    exact .inr (Option.some.inj h).symm
  next => exact .inr (Option.some.inj h).symm

/-- What is stored by an import. -/
theorem restorable_merged {t : JsonText} {imported : List ImportedServer} {r : List Json × ℕ}
    {existing : List Json} (hrestorable : Restorable t) (hmerge : merge t imported = some r)
    (hexisting : existingServers t = some existing) :
    Restorable (.json (.arr r.1)) ↔ ImportAgrees existing (newOnes existing imported) := by
  obtain ⟨existing', hexisting', hurls, rfl⟩ := merge_eq_some.1 hmerge
  obtain rfl : existing' = existing := Option.some.inj (hexisting'.symm.trans hexisting)
  have hobj : ∀ s ∈ existing', s.isObj := by
    intro s hs
    have hurl := hurls s hs
    by_contra hnot
    rw [entryUrl, if_neg hnot] at hurl
    cases hurl
  have hold : KeysRestorable apiKeyOf existing' := by
    rcases existingServers_cases hexisting with rfl | rfl
    · exact hrestorable hobj
    · exact keysRestorable_nil apiKeyOf
  rw [Restorable, keysRestorable_append hold, List.forall_mem_append, List.forall_mem_map]
  exact ⟨fun h => h ⟨fun _ _ => rfl, hobj⟩, fun h _ => h⟩

/-! ### Runs -/

section Runs

variable (repr : Json → String) (blocked : String → String)

/-- What changes the settings: a request, or an import from a Seerr that answers so. -/
inductive SettingsStep
  | update (body : SettingsUpdate)
  | importServers (answer : String → String → Option SeerrReply) (seerrUrl seerrApiKey : String)

/-- The settings after a step; a request that is refused and an import that fails store nothing. -/
def settingsStep (settings : SettingsTable) : SettingsStep → SettingsTable
  | .update body =>
      match updateSettings scheme settings body with
      | .ok settings' => settings'
      | .error _ => settings
  | .importServers answer seerrUrl seerrApiKey =>
      match syncArrFromSeerr repr answer blocked settings seerrUrl seerrApiKey with
      | .ok r => r.1
      | .error _ => settings

def settingsRun (start : SettingsTable) (steps : List SettingsStep) : SettingsTable :=
  steps.foldl (settingsStep scheme repr blocked) start

/-- The condition on a step: in a list that is sent, and in what an import adds, servers with one
identifier have one key, and a list with an identifier that is a list or an object has none. -/
def StepAgrees (settings : SettingsTable) : SettingsStep → Prop
  | .update body => checkUpdate scheme body = .ok () →
      ∀ kind sent, body.arrServers kind = some (.text sent) →
        SentAgrees (settings.getServers kind) sent
  | .importServers answer seerrUrl seerrApiKey => ∀ imported,
      Fetched repr answer blocked settings seerrUrl seerrApiKey imported →
      (∀ kind, (merge (settings.getServers kind) (imported kind)).isSome) →
      ∀ kind existing, existingServers (settings.getServers kind) = some existing →
        ImportAgrees existing (newOnes existing (imported kind))

variable {scheme repr blocked}

/-- A request keeps the settings valid: it is checked. -/
theorem textsValid_writeUpdate {settings : SettingsTable} {body : SettingsUpdate}
    (hvalid : TextsValid scheme settings) (hcheck : checkUpdate scheme body = .ok ()) :
    TextsValid scheme (writeUpdate settings body) := by
  intro key hkey hsensitive value hvalue
  simp only [writeUpdate] at hvalue
  cases hsent : body.text key with
  | none =>
      rw [hsent] at hvalue
      exact hvalid key hkey hsensitive value hvalue
  | some sent =>
      rw [hsent] at hvalue
      dsimp only at hvalue
      rw [if_neg fun h => hsensitive h.1] at hvalue
      obtain rfl := Option.some.inj hvalue
      exact (checkUpdate_eq_ok scheme).1 hcheck key hkey sent hsent

theorem getServers_writeUpdate (settings : SettingsTable) (body : SettingsUpdate) (kind : ArrKind) :
    (writeUpdate settings body).getServers kind =
      match body.arrServers kind with
      | some (.text sent) => restoreServers (settings.getServers kind) sent
      | _ => settings.getServers kind := by
  simp only [writeUpdate, SettingsTable.getServers]
  cases body.arrServers kind with
  | none => rfl
  | some sent =>
      cases sent with
      | mask => rfl
      | text sent => rfl

/-- What a step leaves can be sent back exactly when the step meets its condition. -/
theorem step_restorable_iff {settings : SettingsTable}
    (hrestorable : ∀ kind, Restorable (settings.getServers kind)) (step : SettingsStep) :
    (∀ kind, Restorable ((settingsStep scheme repr blocked settings step).getServers kind)) ↔
      StepAgrees scheme repr blocked settings step := by
  cases step with
  | update body =>
      simp only [settingsStep, StepAgrees, updateSettings]
      cases checkUpdate scheme body with
      | error e => exact ⟨fun _ h => (nomatch h), fun _ => hrestorable⟩
      | ok =>
          simp only [forall_const]
          -- a list that is not sent, or sent as the mask, stays as it is stored
          refine forall_congr' fun kind => ?_
          rw [getServers_writeUpdate]
          cases body.arrServers kind with
          | none => exact ⟨fun _ sent h => (nomatch h), fun _ => hrestorable kind⟩
          | some sent =>
              cases sent with
              | mask => exact ⟨fun _ sent h => (nomatch h), fun _ => hrestorable kind⟩
              | text sent =>
                  dsimp only
                  rw [restorable_restoreServers]
                  constructor
                  · rintro h sent' hsent
                    cases hsent
                    exact h
                  · intro h
                    exact h sent rfl
  | importServers answer seerrUrl seerrApiKey =>
      rw [settingsStep, StepAgrees]
      constructor
      · intro h imported hfetched hmerge kind existing hexisting
        choose r hr using fun kind => Option.isSome_iff_exists.1 (hmerge kind)
        have himport := (syncArrFromSeerr_eq_merged repr answer blocked).2
          ⟨⟨imported, hfetched, hr⟩, rfl⟩
        have hstored := h kind
        rw [himport] at hstored
        exact (restorable_merged (hrestorable kind) (hr kind) hexisting).1 hstored
      · intro h kind
        -- only an import that merges stores anything
        cases himport : syncArrFromSeerr repr answer blocked settings seerrUrl seerrApiKey with
        | error e => exact hrestorable kind
        | ok r =>
            obtain ⟨settings', outcome⟩ := r
            cases outcome with
            | nothingFound =>
                rw [syncArrFromSeerr_nothingFound repr answer blocked himport]
                exact hrestorable kind
            | merged servers added =>
                obtain ⟨⟨imported, hfetched, hmerge⟩, rfl⟩ :=
                  (syncArrFromSeerr_eq_merged repr answer blocked).1 himport
                obtain ⟨existing, hexisting, -, -⟩ := merge_eq_some.1 (hmerge kind)
                refine (restorable_merged (hrestorable kind) (hmerge kind) hexisting).2 ?_
                exact h imported hfetched (fun kind => Option.isSome_iff_exists.2 ⟨_, hmerge kind⟩)
                  kind existing hexisting

theorem textsValid_step {settings : SettingsTable} (hvalid : TextsValid scheme settings)
    (step : SettingsStep) :
    TextsValid scheme (settingsStep scheme repr blocked settings step) := by
  cases step with
  | update body =>
      simp only [settingsStep, updateSettings]
      cases hcheck : checkUpdate scheme body with
      | error e => exact hvalid
      | ok => exact textsValid_writeUpdate hvalid hcheck
  | importServers answer seerrUrl seerrApiKey =>
      rw [settingsStep]
      cases himport : syncArrFromSeerr repr answer blocked settings seerrUrl seerrApiKey with
      | error e => exact hvalid
      | ok r =>
          obtain ⟨settings', outcome⟩ := r
          cases outcome with
          | nothingFound =>
              rw [syncArrFromSeerr_nothingFound repr answer blocked himport]
              exact hvalid
          | merged servers added =>
              obtain ⟨-, rfl⟩ := (syncArrFromSeerr_eq_merged repr answer blocked).1 himport
              exact hvalid

theorem textsValid_run {start : SettingsTable} (hvalid : TextsValid scheme start)
    (steps : List SettingsStep) :
    TextsValid scheme (settingsRun scheme repr blocked start steps) := by
  unfold settingsRun
  induction steps generalizing start with
  | nil => exact hvalid
  | cons step steps ih => exact ih (textsValid_step hvalid step)

/-- **Exactly the runs whose tables all survive their page**: each step of the run meets the
condition. -/
theorem postBackKeeps_run_iff {start : SettingsTable} (hvalid : TextsValid scheme start)
    (hstart : ∀ kind, Restorable (start.getServers kind)) (steps : List SettingsStep) :
    (∀ earlier later, steps = earlier ++ later →
        PostBackKeeps scheme (settingsRun scheme repr blocked start earlier)) ↔
      ∀ earlier step later, steps = earlier ++ step :: later →
        StepAgrees scheme repr blocked (settingsRun scheme repr blocked start earlier) step := by
  induction steps generalizing start with
  | nil =>
      constructor
      · intro _ earlier step later h
        simp at h
      · intro _ earlier later h
        obtain ⟨rfl, -⟩ := List.append_eq_nil_iff.1 h.symm
        exact (postBackKeeps_iff scheme hvalid).2 hstart
  | cons step steps ih =>
      have hvalid' := @textsValid_step scheme repr blocked start hvalid step
      have hstep := @step_restorable_iff scheme repr blocked start hstart step
      constructor
      · intro h
        -- the table after the first step survives
        have hnext := (postBackKeeps_iff scheme hvalid').1 (h [step] steps rfl)
        have hrest := (ih hvalid' hnext).1 fun earlier later hsplit =>
          h (step :: earlier) later (by rw [hsplit]; rfl)
        intro earlier step' later hsplit
        cases earlier with
        | nil =>
            cases hsplit
            exact hstep.1 hnext
        | cons first earlier =>
            cases hsplit
            exact hrest earlier step' later rfl
      · intro h
        have hnext := hstep.2 (h [] step steps rfl)
        have hrest := (ih hvalid' hnext).2 fun earlier step' later hsplit =>
          h (step :: earlier) step' later (by rw [hsplit]; rfl)
        intro earlier later hsplit
        cases earlier with
        | nil => exact (postBackKeeps_iff scheme hvalid).2 hstart
        | cons first earlier =>
            cases hsplit
            exact hrest earlier later rfl

end Runs

/-! ### A fresh start -/

/-- `DEFAULT_SETTINGS`, without the lists of servers. -/
def defaultTexts : List (String × String) :=
  Migrations.defaultSettings.filter fun s =>
    s.1 ∉ ["media_servers", "radarr_servers", "sonarr_servers"]

/-- The settings of a new installation. -/
def defaultSettings : SettingsTable where
  mediaServers := some (.json (.arr []))
  arrServers _ := some (.json (.arr []))
  text key := defaultTexts.lookup key

/-- Every default passes its own check. -/
theorem textsValid_default : TextsValid scheme defaultSettings := by
  intro key hkey _ value hvalue
  have hurl : ∀ key ∈ urlSettings, defaultTexts.lookup key = some "" := by decide +kernel
  rcases List.mem_append.1 hkey with hkey | hkey
  · obtain rfl := Option.some.inj ((hurl key hkey).symm.trans hvalue)
    rw [checkSetting, if_pos hkey, checkUrlSetting, if_pos (.inl rfl)]
  · have hthresholds : defaultTexts.lookup "discord_notif_thresholds" = some "7,1" := by
      decide +kernel
    have hbackup : defaultTexts.lookup "backup_path" = some "/app/data/backups" := by
      decide +kernel
    rw [List.mem_pair] at hkey
    rcases hkey with rfl | rfl
    · obtain rfl := Option.some.inj (hthresholds.symm.trans hvalue)
      rw [checkSetting, if_neg (by decide), if_pos rfl]
      decide +kernel
    · obtain rfl := Option.some.inj (hbackup.symm.trans hvalue)
      rw [checkSetting, if_neg (by decide), if_neg (by decide), if_pos rfl]
      decide +kernel

theorem restorable_default (kind : ArrKind) : Restorable (defaultSettings.getServers kind) :=
  fun _ => keysRestorable_nil apiKeyOf

/-! ### An instance that moves -/

/-- Seerr knows one Radarr server, at this host and with this key. -/
def movedAnswer (host key : String) (url _key : String) : Option SeerrReply :=
  some ⟨200, some (.arr (if url = "http://seerr:5055/api/v1/settings/radarr" then
    [.obj [("id", .num 0), ("name", .str "Films"), ("hostname", .str host), ("port", .num 7878),
      ("apiKey", .str key), ("useSsl", .bool false)]] else []))⟩

def importMoved (host key : String) : SettingsStep :=
  .importServers (movedAnswer host key) "http://seerr:5055" "secret"

/-- The entry that is made from it. -/
def movedServer (host key : String) : ImportedServer :=
  ⟨"seerr-radarr-0", .str "Films", "http://" ++ host ++ ":7878", .str key⟩

/-- A scheme, for the addresses of the examples. -/
def httpScheme (url : String) : Option String :=
  some (if startsWith url "http://" then "http" else "")

/-- A new address of Sonarr. -/
def sonarrUpdate : SettingsUpdate where
  arrServers _ := none
  text key := if key = "sonarr_url" then some "http://sonarr:8989" else none
  known key h := by
    by_cases hkey : key = "sonarr_url"
    · rw [hkey]
      decide
    · rw [if_neg hkey] at h
      cases h

/-- Two imports of an instance that stays, and an update in between. -/
def sampleSteps : List SettingsStep :=
  [importMoved "radarr" "old", .update sonarrUpdate, importMoved "radarr" "old"]

/-- A new installation, and these steps. -/
theorem postBackKeeps_run_iff_imports :
    (∀ earlier later, sampleSteps = earlier ++ later →
        PostBackKeeps httpScheme
          (settingsRun httpScheme (fun _ => "") (fun _ => "") defaultSettings earlier)) ↔
      ∀ earlier step later, sampleSteps = earlier ++ step :: later →
        StepAgrees httpScheme (fun _ => "") (fun _ => "")
          (settingsRun httpScheme (fun _ => "") (fun _ => "") defaultSettings earlier) step :=
  @postBackKeeps_run_iff httpScheme (fun _ => "") (fun _ => "") defaultSettings
    (textsValid_default httpScheme) restorable_default sampleSteps

/-- An instance has moved in Seerr: the second import stores a second entry with its identifier,
and the page that is sent back gives the new entry the old key. -/
theorem not_postBackKeeps_movedInstance :
    ¬ ∀ steps earlier later, steps = earlier ++ later →
      PostBackKeeps httpScheme
        (settingsRun httpScheme (fun _ => "") (fun _ => "") defaultSettings earlier) := by
  intro hall
  have h := hall _ [importMoved "radarr" "old", importMoved "films" "new"] [] rfl
  have hvalid : TextsValid httpScheme (settingsRun httpScheme (fun _ => "") (fun _ => "")
      defaultSettings [importMoved "radarr" "old", importMoved "films" "new"]) :=
    textsValid_run (textsValid_default httpScheme) _
  have hradarr : Restorable (.json (.arr [(movedServer "films" "new").toJson,
      (movedServer "radarr" "old").toJson])) := (postBackKeeps_iff httpScheme hvalid).1 h .radarr
  have hkeys := hradarr (by simp [ImportedServer.toJson, Json.isObj])
  have hagree := hkeys.agree (by simp [Json.dictKey]) _ List.mem_cons_self rfl
    (movedServer "radarr" "old").toJson rfl
  rw [apiKeyOf_toJson, apiKeyOf_toJson] at hagree
  exact absurd (Json.str.inj hagree) (by decide)

end Hygie
