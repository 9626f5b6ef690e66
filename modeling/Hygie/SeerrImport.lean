/-
**The import of servers from Seerr.**

Seerr knows the Radarr and Sonarr servers that it works with, and the settings page can fetch them.
An imported entry gets an identifier from the number that Seerr has for it and an address that is
put together from its parts; what is not yet there goes in front of the entries that are.  Whether
an entry is there is told by its address without the slashes at its end.  The clients compare
addresses otherwise: without spaces around them and in lower case.

The settings are taken as they are read, a list of servers as what `json.loads` makes of it.

Main definitions:

* `SettingsTable` — the settings;
* `SeerrImport.buildArrUrl`, `SeerrImport.importFrom`, `SeerrImport.merge`,
  `SeerrImport.syncArrFromSeerr` — the import;
* `SeerrImport.MergesCleanly` — the law, `SeerrImport.ImportsApart` — the condition.

Main results:

* `SeerrImport.syncArrFromSeerr_clean_iff` — **exactly when an import merges cleanly**;
* `SeerrImport.not_clean_renamedHost` — a host with a capital letter is imported again.
-/

import Hygie.ArrShared
import Hygie.StoredRules

set_option relaxedAutoImplicit false
set_option autoImplicit false

namespace Hygie

open PyText

/-! ### Values -/

/-- A key of a dictionary, as Python compares keys: `True` is `1`. -/
inductive DictKey
  | none
  | num (q : ℚ)
  | str (s : String)
  deriving DecidableEq

/-- The key that a value is; nothing for a value that cannot be hashed. -/
def Json.dictKey : Json → Option DictKey
  | .null => some .none
  | .bool b => some (.num (if b then 1 else 0))
  | .num q => some (.num q)
  | .str s => some (.str s)
  | _ => none

/-- `j.get(key) or default`. -/
def Json.fieldOr (j : Json) (key : String) (default : Json) : Json :=
  match j.get? key with
  | some v => if v.truthy then v else default
  | none => default

def Json.isObj : Json → Bool
  | .obj _ => true
  | _ => false

/-! ### The settings -/

inductive ArrKind
  | radarr
  | sonarr
  deriving DecidableEq

/-- A value for each kind. -/
def ArrKind.pick {α : Type} (radarr sonarr : α) : ArrKind → α
  | .radarr => radarr
  | .sonarr => sonarr

theorem ArrKind.pick_self {α : Type} (f : ArrKind → α) : pick (f .radarr) (f .sonarr) = f := by
  funext kind
  cases kind <;> rfl

/-- The settings, decrypted; a setting without a row is missing. -/
structure SettingsTable where
  mediaServers : Option JsonText := none
  /-- `radarr_servers` and `sonarr_servers`. -/
  arrServers : ArrKind → Option JsonText := fun _ => none
  /-- The settings that hold a text. -/
  text : String → Option String := fun _ => none

/-- `get_setting`, for a list of servers. -/
def SettingsTable.getServers (settings : SettingsTable) (kind : ArrKind) : JsonText :=
  (settings.arrServers kind).getD .empty

/-- `get_setting`, for a text. -/
def SettingsTable.getText (settings : SettingsTable) (key : String) : String :=
  (settings.text key).getD ""

/-- What stands for a secret in what the settings page shows. -/
def settingsMask : String := "***"

/-- The fields of a server in the settings. -/
def entryId (s : Json) : Json := (s.get? "id").getD .null

/-- Python takes the two identifiers for the same. -/
def SameId (a b : Json) : Prop :=
  entryId a = entryId b ∨
    ((entryId a).dictKey.isSome ∧ (entryId a).dictKey = (entryId b).dictKey)

/-- `s.get("url", "")`; nothing where `rstrip` raises. -/
def entryUrl (s : Json) : Option String :=
  if s.isObj then
    match s.get? "url" with
    | none => some ""
    | some url => url.asStr
  else none

/-- The address of a server, as the clients compare it. -/
def normalizedUrl (cfg : Config) (s : Json) : Option String :=
  (entryUrl s).map (normalizeArrUrl cfg)

namespace SeerrImport

/-! ### What Seerr answers -/

def kindName : ArrKind → String
  | .radarr => "radarr"
  | .sonarr => "sonarr"

def kindLabel : ArrKind → String
  | .radarr => "Radarr"
  | .sonarr => "Sonarr"

/-- Where Seerr is asked, one after the other. -/
def endpoints (kind : ArrKind) : List String :=
  ["/api/v1/settings/" ++ kindName kind, "/api/v1/service/" ++ kindName kind]

/-- An answer; the body is missing where `json()` raises. -/
structure SeerrReply where
  status : ℕ
  body : Option Json

-- `repr` of a number with a fraction, of a list and of an object
variable (repr : Json → String)

/-- What an f-string makes of a value. -/
def pyFormat : Json → String
  | .null => "None"
  | .bool b => if b then "True" else "False"
  | .num q => if q.den = 1 then toString q.num else repr (.num q)
  | .str s => s
  | j => repr j

/-- `s.strip("/")`. -/
def stripSlash (s : String) : String := rstripSlash (String.ofList (s.toList.dropWhile isSlash))

/-- `_build_arr_url`; nothing where it raises. -/
def buildArrUrl (srv : Json) : Option String :=
  if srv.isObj then
    let useSsl := ((srv.get? "useSsl").map Json.truthy).getD false
    let scheme := if useSsl then "https" else "http"
    let host := srv.fieldOr "hostname" (.str "")
    let port := srv.fieldOr "port" (.num (if useSsl then 443 else 80))
    (srv.fieldOr "baseUrl" (.str "")).asStr.map fun burl =>
      rstripSlash (scheme ++ "://" ++ pyFormat repr host ++ ":" ++ pyFormat repr port ++ "/" ++
        stripSlash burl)
  else none

/-- An entry that is made from an instance of Seerr; it is enabled. -/
structure ImportedServer where
  id : String
  name : Json
  url : String
  apiKey : Json

def ImportedServer.toJson (srv : ImportedServer) : Json :=
  .obj [("id", .str srv.id), ("name", srv.name), ("url", .str srv.url), ("api_key", srv.apiKey),
    ("enabled", .bool true)]

@[simp] theorem ImportedServer.entryUrl_toJson (srv : ImportedServer) :
    entryUrl srv.toJson = some srv.url := rfl

@[simp] theorem ImportedServer.entryId_toJson (srv : ImportedServer) :
    entryId srv.toJson = .str srv.id := rfl

def importedServer (kind : ArrKind) (srv : Json) : Option ImportedServer :=
  (buildArrUrl repr srv).map fun url =>
    { id := "seerr-" ++ kindName kind ++ "-" ++ pyFormat repr ((srv.get? "id").getD .null)
      name := srv.fieldOr "name" (.str (kindLabel kind))
      url
      apiKey := srv.fieldOr "apiKey" (.str "") }

-- what Seerr answers to a request with a key; nothing where the request raises
variable (answer : String → String → Option SeerrReply)

/-- The instances of the first endpoint that lists one. -/
def importFrom (kind : ArrKind) (base key : String) :
    List String → Option (List ImportedServer)
  | [] => some []
  | endpoint :: rest =>
      match answer (base ++ endpoint) key with
      | none => none
      | some reply =>
          if reply.status = 200 then
            match reply.body with
            | none => none
            | some (.arr (srv :: srvs)) => (srv :: srvs).mapM (importedServer repr kind)
            | some _ => importFrom kind base key rest
          else importFrom kind base key rest

/-- The instances of a kind. -/
def importAll (base key : String) (kind : ArrKind) : Option (List ImportedServer) :=
  importFrom repr answer kind base key (endpoints kind)

/-! ### The merge -/

/-- The list of servers that a setting holds: none where it cannot be read, nothing where the value
is not a list of servers and the loop over it raises. -/
def existingServers : JsonText → Option (List Json)
  | .json (.arr items) => some items
  | .json j => if j.truthy then none else some []
  | _ => some []

/-- The address of an entry is there, up to the slashes at its end. -/
def IsStored (existing : List Json) (srv : ImportedServer) : Prop :=
  ∃ s ∈ existing, (entryUrl s).map rstripSlash = some (rstripSlash srv.url)

instance (existing : List Json) (srv : ImportedServer) : Decidable (IsStored existing srv) :=
  inferInstanceAs (Decidable (∃ s ∈ existing, (entryUrl s).map rstripSlash = _))

/-- `new_ones`: the instances that are not there yet. -/
def newOnes (existing : List Json) (imported : List ImportedServer) : List ImportedServer :=
  imported.filter fun srv => ¬ IsStored existing srv

/-- `_merge`: the servers with those that are new in front, and how many are new; nothing where it
raises. -/
def merge (text : JsonText) (imported : List ImportedServer) : Option (List Json × ℕ) :=
  match existingServers text with
  | none => none
  | some existing =>
      -- the loop over the addresses comes first
      if existing.all fun s => (entryUrl s).isSome then
        some ((newOnes existing imported).map ImportedServer.toJson ++ existing,
          (newOnes existing imported).length)
      else none

theorem merge_eq_some {text : JsonText} {imported : List ImportedServer} {r : List Json × ℕ} :
    merge text imported = some r ↔
      ∃ existing, existingServers text = some existing ∧ (∀ s ∈ existing, (entryUrl s).isSome) ∧
        r = ((newOnes existing imported).map ImportedServer.toJson ++ existing,
          (newOnes existing imported).length) := by
  unfold merge
  cases existingServers text with
  | none => simp
  | some existing =>
      dsimp only
      split_ifs with hall
      · rw [List.all_eq_true] at hall
        constructor
        · intro h
          exact ⟨existing, rfl, hall, (Option.some.inj h).symm⟩
        · rintro ⟨existing', hexisting, -, rfl⟩
          rw [Option.some.inj hexisting]
      · rw [List.all_eq_true] at hall
        constructor
        · intro h
          cases h
        · rintro ⟨existing', hexisting, hurls, -⟩
          rw [Option.some.inj hexisting] at hall
          exact absurd hurls hall

/-- What has been merged is there: merging it again adds nothing. -/
theorem merge_again {text : JsonText} {imported : List ImportedServer} {stored : List Json} {n : ℕ}
    (h : merge text imported = some (stored, n)) :
    merge (.json (.arr stored)) imported = some (stored, 0) := by
  obtain ⟨existing, -, hurls, hr⟩ := merge_eq_some.1 h
  obtain ⟨hstored, -⟩ := Prod.mk.injEq _ _ _ _ ▸ hr
  have hnone : newOnes stored imported = [] := by
    rw [newOnes, List.filter_eq_nil_iff]
    intro srv hsrv
    rw [decide_eq_true_iff, not_not]
    by_cases hold : IsStored existing srv
    · obtain ⟨s, hs, hurl⟩ := hold
      exact ⟨s, hstored ▸ List.mem_append_right _ hs, hurl⟩
    · have hnew : srv ∈ newOnes existing imported :=
        List.mem_filter.2 ⟨hsrv, decide_eq_true hold⟩
      exact ⟨srv.toJson, hstored ▸ List.mem_append_left _ (List.mem_map_of_mem hnew), rfl⟩
  refine merge_eq_some.2 ⟨stored, rfl, ?_, by rw [hnone]; rfl⟩
  intro s hs
  rw [hstored] at hs
  rcases List.mem_append.1 hs with hnew | hold
  · obtain ⟨srv, -, rfl⟩ := List.mem_map.1 hnew
    rfl
  · exact hurls s hold

/-! ### The import -/

inductive SyncFailure
  | valueError (message : String)
  /-- Seerr cannot be reached, or what it answers or what is stored cannot be used. -/
  | raised

inductive SyncOutcome
  | nothingFound
  | merged (servers : ArrKind → List Json) (added : ArrKind → ℕ)

def SyncOutcome.message : SyncOutcome → String
  | .nothingFound => "Aucune instance trouvée dans Seerr"
  | .merged _ added =>
      toString (added .radarr) ++ " Radarr et " ++ toString (added .sonarr) ++ " Sonarr ajouté(s)"

-- `_reject_if_loopback_or_link_local`: the message for a host that is not allowed, or `""`
variable (blocked : String → String)

/-- The key that Seerr is asked with. -/
def seerrKey (settings : SettingsTable) (seerrApiKey : String) : String :=
  if seerrApiKey = settingsMask ∨ seerrApiKey = "" then settings.getText "seerr_api_key"
  else seerrApiKey

/-- `sync_arr_from_seerr`: the settings after it and what it answers, or how it fails; then nothing
is stored. -/
def syncArrFromSeerr (settings : SettingsTable) (seerrUrl seerrApiKey : String) :
    Except SyncFailure (SettingsTable × SyncOutcome) :=
  let base := rstripSlash seerrUrl
  let key := seerrKey settings seerrApiKey
  if base = "" ∨ key = "" then .error (.valueError "URL et clé API Seerr requis")
  else if blocked base ≠ "" then .error (.valueError (blocked base))
  else
    match importAll repr answer base key .radarr, importAll repr answer base key .sonarr with
    | some importedRadarr, some importedSonarr =>
        if importedRadarr.isEmpty && importedSonarr.isEmpty then .ok (settings, .nothingFound)
        else
          match merge (settings.getServers .radarr) importedRadarr,
            merge (settings.getServers .sonarr) importedSonarr with
          | some radarr, some sonarr =>
              let servers := ArrKind.pick radarr.1 sonarr.1
              .ok ({ settings with arrServers := fun kind => some (.json (.arr (servers kind))) },
                .merged servers (ArrKind.pick radarr.2 sonarr.2))
          | _, _ => .error .raised
    | _, _ => .error .raised

/-! ### The outcome of an import -/

/-- The import gets the instances from Seerr, and there is one. -/
structure Fetched (settings : SettingsTable) (seerrUrl seerrApiKey : String)
    (imported : ArrKind → List ImportedServer) : Prop where
  url : rstripSlash seerrUrl ≠ ""
  key : seerrKey settings seerrApiKey ≠ ""
  allowed : blocked (rstripSlash seerrUrl) = ""
  fetched : ∀ kind,
    importAll repr answer (rstripSlash seerrUrl) (seerrKey settings seerrApiKey) kind =
      some (imported kind)
  found : ∃ kind, imported kind ≠ []

/-- An import that stores something has merged what it has fetched. -/
theorem syncArrFromSeerr_eq_merged {settings settings' : SettingsTable}
    {seerrUrl seerrApiKey : String} {servers : ArrKind → List Json} {added : ArrKind → ℕ} :
    syncArrFromSeerr repr answer blocked settings seerrUrl seerrApiKey =
        .ok (settings', .merged servers added) ↔
      (∃ imported, Fetched repr answer blocked settings seerrUrl seerrApiKey imported ∧
        ∀ kind, merge (settings.getServers kind) (imported kind) =
          some (servers kind, added kind)) ∧
      settings' =
        { settings with arrServers := fun kind => some (.json (.arr (servers kind))) } := by
  constructor
  · intro h
    rw [syncArrFromSeerr] at h
    split_ifs at h with hempty hblocked
    rw [not_or] at hempty
    split at h
    next radarr sonarr hradarr hsonarr =>
      split_ifs at h with hnothing
      · cases h
      split at h
      next r s hr hs =>
        simp only [Except.ok.injEq, Prod.mk.injEq, SyncOutcome.merged.injEq] at h
        obtain ⟨rfl, rfl, rfl⟩ := h
        refine ⟨⟨ArrKind.pick radarr sonarr,
          ⟨hempty.1, hempty.2, not_not.1 hblocked, ?_, ?_⟩, ?_⟩, rfl⟩
        · rintro (_ | _)
          · exact hradarr
          · exact hsonarr
        · rw [Bool.and_eq_true, List.isEmpty_iff, List.isEmpty_iff, not_and_or] at hnothing
          rcases hnothing with hr' | hs'
          · exact ⟨.radarr, hr'⟩
          · exact ⟨.sonarr, hs'⟩
        · rintro (_ | _)
          · exact hr
          · exact hs
      next => cases h
    next => cases h
  · rintro ⟨⟨imported, hfetched, hmerge⟩, rfl⟩
    -- each check of the route is one of the facts
    have hguard : ¬ (rstripSlash seerrUrl = "" ∨ seerrKey settings seerrApiKey = "") :=
      not_or.2 ⟨hfetched.url, hfetched.key⟩
    have hfound : ¬ ((imported .radarr).isEmpty && (imported .sonarr).isEmpty) = true := by
      obtain ⟨kind, hkind⟩ := hfetched.found
      rw [Bool.and_eq_true, List.isEmpty_iff, List.isEmpty_iff]
      rintro ⟨hr, hs⟩
      cases kind with
      | radarr => exact hkind hr
      | sonarr => exact hkind hs
    simp only [syncArrFromSeerr, if_neg hguard, hfetched.allowed, ne_eq, not_true_eq_false,
      if_false, hfetched.fetched, if_neg hfound, hmerge, ArrKind.pick_self]

/-- An import that finds nothing stores nothing. -/
theorem syncArrFromSeerr_nothingFound {settings settings' : SettingsTable}
    {seerrUrl seerrApiKey : String}
    (h : syncArrFromSeerr repr answer blocked settings seerrUrl seerrApiKey =
      .ok (settings', .nothingFound)) : settings' = settings := by
  rw [syncArrFromSeerr] at h
  split_ifs at h
  split at h
  next =>
    split_ifs at h
    · cases h
      rfl
    · split at h
      · cases h
      · cases h
  next => cases h

/-! ### The law -/

section Law

variable (cfg : Config)

/-- What an import stores: the existing servers, and no two with one address or one identifier. -/
structure MergesCleanly (existing stored : List Json) : Prop where
  kept : existing.Sublist stored
  urls : stored.Pairwise fun a b => normalizedUrl cfg a ≠ normalizedUrl cfg b
  ids : stored.Pairwise fun a b => ¬ SameId a b

/-- The instances that are not there yet have addresses and identifiers that are their own, and the
existing servers have identifiers that are theirs. -/
structure ImportsApart (existing : List Json) (imported : List ImportedServer) : Prop where
  among : imported.Pairwise fun a b => ¬ IsStored existing a → ¬ IsStored existing b →
    normalizeArrUrl cfg a.url ≠ normalizeArrUrl cfg b.url ∧ a.id ≠ b.id
  fresh : ∀ srv ∈ imported, ¬ IsStored existing srv → ∀ s ∈ existing,
    normalizedUrl cfg s ≠ some (normalizeArrUrl cfg srv.url) ∧
      (entryId s).dictKey ≠ some (.str srv.id)
  ids : existing.Pairwise fun a b => ¬ SameId a b

theorem normalizedUrl_toJson (srv : ImportedServer) :
    normalizedUrl cfg srv.toJson = some (normalizeArrUrl cfg srv.url) := rfl

theorem sameId_toJson_left {srv : ImportedServer} {s : Json} :
    SameId srv.toJson s ↔ (entryId s).dictKey = some (.str srv.id) := by
  unfold SameId
  rw [ImportedServer.entryId_toJson]
  constructor
  · rintro (h | ⟨-, h⟩)
    · rw [← h]
      rfl
    · exact h.symm
  · intro h
    exact .inr ⟨rfl, h.symm⟩

theorem sameId_toJson {a b : ImportedServer} : SameId a.toJson b.toJson ↔ a.id = b.id := by
  rw [sameId_toJson_left, ImportedServer.entryId_toJson]
  constructor
  · intro h
    injection h with h
    injection h with h
    exact h.symm
  · intro h
    rw [h]
    rfl

/-- The new servers in front of the existing ones. -/
theorem mergesCleanly_iff {existing : List Json} {imported : List ImportedServer}
    (hdistinct : existing.Pairwise fun a b => normalizedUrl cfg a ≠ normalizedUrl cfg b) :
    MergesCleanly cfg existing
        ((newOnes existing imported).map ImportedServer.toJson ++ existing) ↔
      ImportsApart cfg existing imported := by
  have hpairs (R : ImportedServer → ImportedServer → Prop) :
      (newOnes existing imported).Pairwise R ↔
        imported.Pairwise fun a b => ¬ IsStored existing a → ¬ IsStored existing b → R a b := by
    rw [newOnes, List.pairwise_filter]
    simp only [decide_eq_true_iff]
  have hmem (srv : ImportedServer) :
      srv ∈ newOnes existing imported ↔ srv ∈ imported ∧ ¬ IsStored existing srv := by
    rw [newOnes, List.mem_filter, decide_eq_true_iff]
  constructor
  · intro h
    obtain ⟨hurls, -, hurlsCross⟩ := List.pairwise_append.1 h.urls
    obtain ⟨hids, hidsOld, hidsCross⟩ := List.pairwise_append.1 h.ids
    rw [List.pairwise_map, hpairs] at hurls hids
    -- among the new servers, between new and old ones, and among the old ones
    refine ⟨?_, ?_, hidsOld⟩
    · refine hurls.imp₂ ?_ hids
      intro a b hurl hid ha hb
      refine ⟨fun heq => hurl ha hb ?_, fun heq => hid ha hb (sameId_toJson.2 heq)⟩
      rw [normalizedUrl_toJson, normalizedUrl_toJson, heq]
    · intro srv hsrv hnew s hs
      have hsrvJson := List.mem_map_of_mem (f := ImportedServer.toJson) ((hmem srv).2 ⟨hsrv, hnew⟩)
      refine ⟨fun heq => hurlsCross _ hsrvJson s hs heq.symm, fun heq => ?_⟩
      exact hidsCross _ hsrvJson s hs (sameId_toJson_left.2 heq)
  · intro h
    refine ⟨List.sublist_append_right _ _, List.pairwise_append.2 ⟨?_, hdistinct, ?_⟩,
      List.pairwise_append.2 ⟨?_, h.ids, ?_⟩⟩
    · rw [List.pairwise_map, hpairs]
      refine h.among.imp ?_
      intro a b hab ha hb heq
      exact (hab ha hb).1 (Option.some.inj heq)
    · intro a ha s hs heq
      obtain ⟨srv, hsrv, rfl⟩ := List.mem_map.1 ha
      obtain ⟨himported, hnew⟩ := (hmem srv).1 hsrv
      exact (h.fresh srv himported hnew s hs).1 heq.symm
    · rw [List.pairwise_map, hpairs]
      refine h.among.imp ?_
      intro a b hab ha hb hsame
      exact (hab ha hb).2 (sameId_toJson.1 hsame)
    · intro a ha s hs hsame
      obtain ⟨srv, hsrv, rfl⟩ := List.mem_map.1 ha
      obtain ⟨himported, hnew⟩ := (hmem srv).1 hsrv
      exact (h.fresh srv himported hnew s hs).2 (sameId_toJson_left.1 hsame)

/-- What an import stores is merged again without a change. -/
theorem syncArrFromSeerr_again {settings settings' : SettingsTable} {seerrUrl seerrApiKey : String}
    {servers : ArrKind → List Json} {added : ArrKind → ℕ}
    (h : syncArrFromSeerr repr answer blocked settings seerrUrl seerrApiKey =
      .ok (settings', .merged servers added)) :
    syncArrFromSeerr repr answer blocked settings' seerrUrl seerrApiKey =
      .ok (settings', .merged servers fun _ => 0) := by
  obtain ⟨⟨imported, hfetched, hmerge⟩, rfl⟩ :=
    (syncArrFromSeerr_eq_merged repr answer blocked).1 h
  refine (syncArrFromSeerr_eq_merged repr answer blocked).2 ⟨⟨imported, ?_, ?_⟩, rfl⟩
  · -- the key that is stored has not changed
    exact ⟨hfetched.url, hfetched.key, hfetched.allowed, hfetched.fetched, hfetched.found⟩
  · intro kind
    exact merge_again (hmerge kind)

/-- **Exactly when an import merges cleanly**: when the instances that are not there yet, up to the
slashes at the end of an address, have addresses and identifiers that no other server has. -/
theorem syncArrFromSeerr_clean_iff {settings settings' : SettingsTable}
    {seerrUrl seerrApiKey : String} {servers : ArrKind → List Json} {added : ArrKind → ℕ}
    (hsync : syncArrFromSeerr repr answer blocked settings seerrUrl seerrApiKey =
      .ok (settings', .merged servers added))
    (kind : ArrKind) {existing : List Json} {imported : List ImportedServer}
    (hexisting : existingServers (settings.getServers kind) = some existing)
    (himported : importAll repr answer (rstripSlash seerrUrl) (seerrKey settings seerrApiKey) kind =
      some imported)
    (hdistinct : existing.Pairwise fun a b => normalizedUrl cfg a ≠ normalizedUrl cfg b) :
    ((∃ stored, settings'.arrServers kind = some (.json (.arr stored)) ∧
          MergesCleanly cfg existing stored) ∧
        syncArrFromSeerr repr answer blocked settings' seerrUrl seerrApiKey =
          .ok (settings', .merged servers fun _ => 0)) ↔
      ImportsApart cfg existing imported := by
  have hagain := syncArrFromSeerr_again repr answer blocked hsync
  obtain ⟨⟨imported', hfetched, hmerge⟩, rfl⟩ :=
    (syncArrFromSeerr_eq_merged repr answer blocked).1 hsync
  obtain ⟨existing', hexisting', -, hr⟩ := merge_eq_some.1 (hmerge kind)
  obtain rfl : existing' = existing := Option.some.inj (hexisting'.symm.trans hexisting)
  obtain rfl : imported' kind = imported :=
    Option.some.inj ((hfetched.fetched kind).symm.trans himported)
  have hstored : servers kind =
      (newOnes existing' (imported' kind)).map ImportedServer.toJson ++ existing' :=
    congrArg Prod.fst hr
  rw [← mergesCleanly_iff cfg hdistinct, ← hstored]
  constructor
  · rintro ⟨⟨stored, hset, hclean⟩, -⟩
    injection hset with hset
    injection hset with hset
    injection hset with hset
    rw [hset]
    exact hclean
  · intro hclean
    exact ⟨⟨servers kind, rfl, hclean⟩, hagain⟩

end Law

/-! ### A host with a capital letter -/

/-- A server that Seerr works with. -/
def seerrInstance : Json :=
  .obj [("id", .num 0), ("name", .str "Films"), ("hostname", .str "radarr"), ("port", .num 7878),
    ("apiKey", .str "key"), ("useSsl", .bool false)]

/-- Seerr knows this server, and no Sonarr server. -/
def seerrAnswer (url _key : String) : Option SeerrReply :=
  some ⟨200, some (.arr (if url = "http://seerr:5055/api/v1/settings/radarr" then [seerrInstance]
    else []))⟩

/-- The entry that is made from it. -/
def seerrFilms : ImportedServer :=
  ⟨"seerr-radarr-0", .str "Films", "http://radarr:7878", .str "key"⟩

/-- A server that somebody has entered. -/
def enteredFilms (url : String) : Json :=
  .obj [("id", .str "1"), ("name", .str "Films"), ("url", .str url), ("api_key", .str "key"),
    ("enabled", .bool true)]

/-- The settings with this server. -/
def enteredSettings (url : String) : SettingsTable where
  arrServers := ArrKind.pick (some (.json (.arr [enteredFilms url]))) none

/-- The servers after the import. -/
def mergedServers (url : String) : ArrKind → List Json :=
  ArrKind.pick [seerrFilms.toJson, enteredFilms url] []

/-- The settings after the import. -/
def mergedSettings (url : String) : SettingsTable :=
  { enteredSettings url with
    arrServers := fun kind => some (.json (.arr (mergedServers url kind))) }

/-- The addresses as Python compares them, for letters without accents. -/
def lowerConfig : Config where
  lower s := String.ofList (s.toList.map Char.toLower)

/-- A server at another host is no obstacle. -/
theorem syncArrFromSeerr_clean_iff_otherHost :
    ((∃ stored, (mergedSettings "http://films:7878").arrServers .radarr =
            some (.json (.arr stored)) ∧
          MergesCleanly lowerConfig [enteredFilms "http://films:7878"] stored) ∧
        syncArrFromSeerr (fun _ => "") seerrAnswer (fun _ => "")
            (mergedSettings "http://films:7878") "http://seerr:5055/" "key" =
          .ok (mergedSettings "http://films:7878",
            .merged (mergedServers "http://films:7878") fun _ => 0)) ↔
      ImportsApart lowerConfig [enteredFilms "http://films:7878"] [seerrFilms] :=
  @syncArrFromSeerr_clean_iff (fun _ => "") seerrAnswer (fun _ => "") lowerConfig
    (enteredSettings "http://films:7878") (mergedSettings "http://films:7878") "http://seerr:5055/"
    "key" (mergedServers "http://films:7878") (ArrKind.pick 1 0) rfl .radarr
    [enteredFilms "http://films:7878"] [seerrFilms] rfl rfl (List.pairwise_singleton _ _)

/-- The host has been entered with a capital letter: the server is imported again, and then there
are two with one address. -/
theorem not_clean_renamedHost :
    ¬ ∀ (settings settings' : SettingsTable) (servers : ArrKind → List Json) (added : ArrKind → ℕ)
        (kind : ArrKind) (existing : List Json),
      syncArrFromSeerr (fun _ => "") seerrAnswer (fun _ => "") settings "http://seerr:5055/" "key" =
          .ok (settings', .merged servers added) →
      existingServers (settings.getServers kind) = some existing →
      (existing.Pairwise fun a b => normalizedUrl lowerConfig a ≠ normalizedUrl lowerConfig b) →
      (∃ stored, settings'.arrServers kind = some (.json (.arr stored)) ∧
          MergesCleanly lowerConfig existing stored) ∧
        syncArrFromSeerr (fun _ => "") seerrAnswer (fun _ => "") settings' "http://seerr:5055/"
          "key" = .ok (settings', .merged servers fun _ => 0) := by
  intro hall
  obtain ⟨⟨stored, hstored, hclean⟩, -⟩ := hall (enteredSettings "http://Radarr:7878")
    (mergedSettings "http://Radarr:7878") (mergedServers "http://Radarr:7878") (ArrKind.pick 1 0)
    .radarr [enteredFilms "http://Radarr:7878"] rfl rfl (List.pairwise_singleton _ _)
  injection hstored with hstored
  injection hstored with hstored
  injection hstored with hstored
  have hurls := hclean.urls
  rw [← hstored] at hurls
  exact List.rel_of_pairwise_cons hurls (List.mem_singleton_self _) (by decide +kernel)

end SeerrImport

end Hygie
