/-
**The migrations of the schema.**

At its start the application brings its database up to date by seventeen migrations, in their order.
 Each is recorded when it ends and is not run again.  Some add a column or a table that is missing,
some rewrite rows: notification flags become rows of their own, the settings of a single media
server become a list, the conditions of the libraries become expert rules, and hours become minutes.

What the runtime and the engine do with texts is a parameter: how texts are compared, what the
columns of a rule keep, and the reading and writing of JSON.

Main definitions:

* `MigrationConfig` — the engine and the runtime;
* `ensureColumn`, `ensureTable` — what most migrations do;
* `m001NoOp`, …, `m017EnsurePlexOverlaysTable` — the migrations;
* `migrationStages`, `runMigrations` — all of them, with the table that records them.
-/

import Hygie.Catalog
import Hygie.PyInt
import Hygie.RuleMigration
import Hygie.Transactions

set_option relaxedAutoImplicit false
set_option autoImplicit false

namespace Hygie.Migrations

open Catalogs Transactions PyText

/-- An entry of `notified_thresholds`: a number of days, or something else as `str` writes it. -/
inductive ThresholdEntry
  | days (n : ℤ)
  | other (text : String)
  deriving DecidableEq, Repr

/-- The engine and the runtime. -/
structure MigrationConfig where
  mariadb : Bool
  /-- What is compared of a text. -/
  collate : String → String := id
  /-- `LIKE`, for a pattern that is a prefix. -/
  likePrefix : String → String → Bool := startsWith
  /-- What the columns of `expert_rules` keep of a name and of the identifier of a library; nothing
  stands for a value that is refused. -/
  keepName : String → Option String := some
  keepId : Key → Option Value := fun key => some key.value
  /-- There is a key to encrypt with. -/
  hasKey : Bool
  /-- `json.loads` and `json.dumps`; nothing stands for an exception, and a condition whose field is
  unknown is nothing as well. -/
  loadThresholds : String → Option (List ThresholdEntry)
  loadConditions : String → Option (List (Option LegacyCondition))
  loadSeerr : String → Option (List SeerrCondition)
  dumpConditions : List Condition → String

/-- What `_decrypt_value` makes of a stored text, and of a missing one. -/
def opened : Option Value → String
  | some (.text s) => s
  | some (.sealed s) => s
  | some (.int n) => Int.repr n
  | _ => ""

/-- A code unit as `json.dumps` escapes it. -/
def jsonEscape (n : ℕ) : List Char :=
  let digits := Nat.toDigits 16 n
  "\\u".toList ++ List.replicate (4 - digits.length) (Char.ofNat 48) ++ digits

/-- A character of a text as `json.dumps` writes it. -/
def jsonChar (c : Char) : List Char :=
  match c.toNat with
  | 8 => "\\b".toList
  | 9 => "\\t".toList
  | 10 => "\\n".toList
  | 12 => "\\f".toList
  | 13 => "\\r".toList
  | 34 => "\\\"".toList
  | 92 => "\\\\".toList
  | n =>
      if 32 ≤ n ∧ n ≤ 126 then [c]
      else if n < 65536 then jsonEscape n
      else jsonEscape (55296 + (n - 65536) / 1024) ++ jsonEscape (56320 + (n - 65536) % 1024)

/-- A text as `json.dumps` writes it. -/
def jsonText (s : String) : String := "\"" ++ String.ofList (s.toList.flatMap jsonChar) ++ "\""

/-- `json.dumps([server0])`. -/
def dumpServer (url apiKey extUrl type : String) : String :=
  "[\x7b\"id\": \"0\", \"name\": \"Serveur Principal\", \"url\": " ++
    (jsonText url ++ ", \"api_key\": " ++ jsonText apiKey ++ ", \"ext_url\": " ++ jsonText extUrl ++
      ", \"type\": " ++ jsonText type ++ ", \"enabled\": true\x7d]")

namespace MigrationConfig

variable (cfg : MigrationConfig)

/-- What differs between the dialects. -/
def byDialect {α : Type} (mariadb sqlite : α) : α := if cfg.mariadb then mariadb else sqlite

/-- Two cells of a unique key are the same. -/
def same : Value → Value → Bool
  | .text s, .text s' => cfg.collate s = cfg.collate s'
  | v, v' => v = v'

/-- `c IS NULL OR c = ''`. -/
def blank : Value → Bool
  | .null => true
  | .text s => cfg.collate s = cfg.collate ""
  | _ => false

/-- `_encrypt_value`. -/
def encryptValue (s : String) : Value := if cfg.hasKey = true ∧ s ≠ "" then .sealed s else .text s

end MigrationConfig

section Migrations

variable (cfg : MigrationConfig)

/-! ### Columns and tables -/

/-- A column is added if it is missing. -/
def ensureColumn (table : String) (column : Column) : Program Catalog :=
  .read fun db =>
    if column.name ∈ tableColumns db table then .done
    else .write .schema (addColumn table column) (.commit .done)

/-- Columns are added if they are missing, one after the other. -/
def ensureColumns : List (String × Column) → Program Catalog
  | [] => .commit .done
  | (table, column) :: rest =>
      .read fun db =>
        if column.name ∈ tableColumns db table then ensureColumns rest
        else .write .schema (addColumn table column) (ensureColumns rest)

/-- A table is created if it is missing. -/
def ensureTable (table : String) (t : Table) (needs : List String) : Program Catalog :=
  .read fun db =>
    if (db table).isSome then .done
    else .write .schema (createTable table t needs) (.commit .done)

/-- `_m001_no_op`. -/
def m001NoOp : Program Catalog := .done

/-- `_m002_ensure_seen_status_on_logs`. -/
def m002EnsureSeenStatusOnLogs : Program Catalog :=
  ensureColumn "logs" { name := "seen_status", type := "TEXT" }

/-- `_m003_ensure_grace_days_on_expert_rules`. -/
def m003EnsureGraceDaysOnExpertRules : Program Catalog :=
  ensureColumn "expert_rules"
    { name := "grace_days", type := "INTEGER NOT NULL DEFAULT 7", default := .int 7 }

/-- `_m004_ensure_refresh_tokens_table`. -/
def m004EnsureRefreshTokensTable : Program Catalog :=
  cfg.byDialect
    (ensureTable "refresh_tokens"
      { columns :=
          [{ name := "id", type := "INT NOT NULL AUTO_INCREMENT", default := .generated },
            { name := "user_id", type := "INT NOT NULL" },
            { name := "token_hash", type := "VARCHAR(255) NOT NULL" },
            { name := "expires_at", type := "VARCHAR(32) NOT NULL" },
            { name := "created_at", type := "VARCHAR(32) NOT NULL DEFAULT ''",
              default := .text "" },
            { name := "revoked", type := "TINYINT NOT NULL DEFAULT 0", default := .int 0 }]
        constraints :=
          ["PRIMARY KEY (id)", "UNIQUE KEY uq_rt_token (token_hash)",
            "CONSTRAINT fk_rt_user FOREIGN KEY (user_id) REFERENCES users(id) ON DELETE CASCADE"] }
      ["users"])
    (ensureTable "refresh_tokens"
      { columns :=
          [{ name := "id", type := "INTEGER PRIMARY KEY AUTOINCREMENT", default := .generated },
            { name := "user_id",
              type := "INTEGER NOT NULL REFERENCES users(id) ON DELETE CASCADE" },
            { name := "token_hash", type := "TEXT NOT NULL UNIQUE" },
            { name := "expires_at", type := "TEXT NOT NULL" },
            { name := "created_at", type := "TEXT NOT NULL DEFAULT ''", default := .text "" },
            { name := "revoked", type := "INTEGER NOT NULL DEFAULT 0", default := .int 0 }] }
      [])

/-- `_m006_fix_mariadb_expert_rules_schema`: the columns are read once. -/
def m006FixMariadbExpertRulesSchema : Program Catalog :=
  let libraryIds : Column :=
    { name := "library_ids", type := cfg.byDialect "LONGTEXT DEFAULT NULL" "TEXT DEFAULT NULL" }
  let graceDays : Column :=
    { name := "grace_days"
      type := cfg.byDialect "INT NOT NULL DEFAULT 7" "INTEGER NOT NULL DEFAULT 7"
      default := .int 7 }
  .read fun db =>
    let cols := tableColumns db "expert_rules"
    let rest : Program Catalog :=
      if graceDays.name ∈ cols then .commit .done
      else .write .schema (addColumn "expert_rules" graceDays) (.commit .done)
    if libraryIds.name ∈ cols then rest
    else .write .schema (addColumn "expert_rules" libraryIds) rest

/-- `_m008_add_job_id_to_logs`. -/
def m008AddJobIdToLogs : Program Catalog :=
  ensureColumn "logs"
    { name := "job_id", type := cfg.byDialect "INT DEFAULT NULL" "INTEGER DEFAULT NULL" }

/-- `_m014_add_library_ids_to_seerr_user_rules`. -/
def m014AddLibraryIdsToSeerrUserRules : Program Catalog :=
  ensureColumn "seerr_user_rules"
    { name := "library_ids", type := cfg.byDialect "LONGTEXT DEFAULT NULL" "TEXT DEFAULT NULL" }

/-- `_m015_fix_remaining_mariadb_column_gaps`. -/
def m015FixRemainingMariadbColumnGaps : Program Catalog :=
  ensureColumns
    [("media_queue",
        { name := "torrent_hash", type := cfg.byDialect "TEXT DEFAULT ('')" "TEXT DEFAULT ''"
          default := .text "" }),
      ("media_queue",
        { name := "seerr_discord_id", type := cfg.byDialect "TEXT DEFAULT ('')" "TEXT DEFAULT ''"
          default := .text "" }),
      ("media_queue",
        { name := "ignored", type := cfg.byDialect "TINYINT DEFAULT 0" "INTEGER DEFAULT 0"
          default := .int 0 }),
      ("logs",
        { name := "category", type := cfg.byDialect "TEXT DEFAULT ('')" "TEXT DEFAULT ''"
          default := .text "" }),
      ("job_history", { name := "result", type := cfg.byDialect "LONGTEXT DEFAULT NULL" "TEXT" }),
      ("seerr_user_rules",
        { name := "name"
          type := cfg.byDialect "TEXT NOT NULL DEFAULT ('')" "TEXT NOT NULL DEFAULT ''"
          default := .text "" })]

/-- `_m016_add_arr_server_url_to_media_queue`. -/
def m016AddArrServerUrlToMediaQueue : Program Catalog :=
  ensureColumn "media_queue" { name := "arr_server_url", type := "TEXT DEFAULT NULL" }

/-- `_m017_ensure_plex_overlays_table`. -/
def m017EnsurePlexOverlaysTable : Program Catalog :=
  cfg.byDialect
    (ensureTable "plex_overlays"
      { columns :=
          [{ name := "id", type := "INT NOT NULL AUTO_INCREMENT", default := .generated },
            { name := "server_id", type := "VARCHAR(255) NOT NULL" },
            { name := "rating_key", type := "VARCHAR(255) NOT NULL" },
            { name := "applied_at", type := "VARCHAR(32) NOT NULL" }]
        constraints := ["PRIMARY KEY (id)",
          "UNIQUE KEY uq_plex_overlays (server_id, rating_key)"] } [])
    (ensureTable "plex_overlays"
      { columns :=
          [{ name := "id", type := "INTEGER PRIMARY KEY AUTOINCREMENT", default := .generated },
            { name := "server_id", type := "TEXT NOT NULL" },
            { name := "rating_key", type := "TEXT NOT NULL" },
            { name := "applied_at", type := "TEXT NOT NULL" }]
        constraints := ["UNIQUE (server_id, rating_key)"] } [])

/-! ### Rows -/

/-- `UPDATE libraries SET c = v WHERE c IS NULL OR c = ''`. -/
def backfillLibraries (c : String) (v : Value) : Catalog → Option Catalog :=
  modify "libraries" [c] fun t => t.rows.map (fillBlank cfg.blank c v)

/-- `_m005_normalize_library_server_id`. -/
def m005NormalizeLibraryServerId : Program Catalog :=
  .write .data (backfillLibraries cfg "server_id" (.text "0")) (.commit .done)

/-- A statement whose failure is passed over. -/
def attempt (change : Catalog → Option Catalog) (next : Program Catalog) : Program Catalog :=
  .write .data (fun db => some ((change db).getD db)) next

/-- `INSERT OR IGNORE INTO notifications (media_id, threshold)`, of some rows. -/
def insertNotifications (pairs : List (Key × String)) : Catalog → Option Catalog :=
  modify "notifications" ["media_id", "threshold"] fun t =>
    pairs.foldl (fun rows pair => insertOrIgnore cfg.same ["media_id", "threshold"] rows
      (t.newRow [("media_id", pair.1.value), ("threshold", .text pair.2)])) t.rows

/-- The flags of `media_queue` and their thresholds. -/
def legacyFlags : List (String × String) :=
  [("notified_30d", "30d"), ("notified_7d", "7d"), ("notified_1d", "1d"), ("notified_now", "now"),
    ("notified_detected", "detected")]

/-- The items whose flag is set, if there is the column. -/
def flaggedPairs (db : Catalog) (flag : String × String) : Option (List (Key × String)) :=
  (db "media_queue").bind fun t =>
    if flag.1 ∈ t.names then
      some ((t.rows.filter fun row => row.cell flag.1 = .int 1).map fun row => (row.key, flag.2))
    else none

/-- The threshold of an entry; `migrated` is none. -/
def ThresholdEntry.threshold : ThresholdEntry → Option String
  | .days n => some (Int.repr n ++ "d")
  | .other text => if text = "migrated" then none else some text

/-- The thresholds that `notified_thresholds` lists, up to the first row that cannot be read. -/
def listedPairs : List Row → List (Key × String)
  | [] => []
  | row :: rows =>
      match row.cell "notified_thresholds" with
      | .text s =>
          match cfg.loadThresholds (if s = "" then "[]" else s) with
          | some entries =>
              (entries.filterMap ThresholdEntry.threshold).map (fun t => (row.key, t)) ++
                listedPairs rows
          | none => []
      | _ => []

/-- The rows whose `notified_thresholds` is neither `NULL` nor empty. -/
def listedRows (db : Catalog) : List Row :=
  match db "media_queue" with
  | none => []
  | some t =>
      if "notified_thresholds" ∈ t.names then
        t.rows.filter fun row =>
          row.cell "notified_thresholds" ≠ .null &&
            !cfg.same (row.cell "notified_thresholds") (.text "[]")
      else []

/-- `_m007_migrate_notification_columns`. -/
def m007MigrateNotificationColumns : Program Catalog :=
  legacyFlags.foldr (fun flag next =>
      attempt
        (fun db => (flaggedPairs db flag).bind fun pairs => insertNotifications cfg pairs db) next)
    (.read fun db =>
      (listedPairs cfg (listedRows cfg db)).foldr
        (fun pair next => attempt (insertNotifications cfg [pair]) next) (.commit .done))

/-! ### Settings -/

/-- `SELECT value FROM settings WHERE key = …`. -/
def fetchSetting (key : String) (next : Option Value → Program Catalog) : Program Catalog :=
  .read fun db =>
    match db "settings" with
    | none => .fail
    | some t => next ((findKey (.text key) t.rows).map fun row => row.cell "value")

/-- `INSERT OR REPLACE INTO settings`. -/
def upsertSetting (key : String) (v : Value) : Catalog → Option Catalog :=
  modify "settings" ["value"] fun t => upsert (.text key) "value" v t.rows

/-- `INSERT OR IGNORE INTO settings`. -/
def insertSetting (key : String) (v : Value) : Catalog → Option Catalog :=
  modify "settings" ["value"] fun t =>
    if (findKey (.text key) t.rows).isSome then t.rows else upsert (.text key) "value" v t.rows

/-- `DELETE FROM settings`. -/
def deleteSetting (key : String) : Catalog → Option Catalog :=
  modify "settings" [] fun t => deleteKey (.text key) t.rows

/-- The list of media servers has members. -/
def isPopulated (msRow : Option Value) : Bool := opened msRow ∉ ["[]", "", "null"]

/-- The address of the single server, unless there is none or it is encrypted. -/
def plainUrl : Option Value → Option String
  | some (.text s) => if s = "" ∨ startsWith s "enc:" = true then none else some s
  | _ => none

/-- `_m009_migrate_legacy_emby_to_media_servers`. -/
def m009MigrateLegacyEmbyToMediaServers : Program Catalog :=
  fetchSetting "media_servers" fun msRow =>
    if isPopulated msRow then .done
    else
      .reconnect (fetchSetting "emby_url" fun urlRow =>
        match plainUrl urlRow with
        | none => .done
        | some embyUrl =>
            .reconnect (fetchSetting "emby_api_key" fun keyRow =>
              fetchSetting "emby_external_url" fun extRow =>
              fetchSetting "media_server_type" fun typeRow =>
                .reconnect (.write .data
                  (upsertSetting "media_servers" (cfg.encryptValue
                    (dumpServer embyUrl (opened keyRow) (opened extRow) (opened typeRow))))
                  (.commit .done))))

/-- The settings of the single server. -/
def singleServerKeys : List String :=
  ["emby_url", "emby_api_key", "emby_external_url", "media_server_type"]

/-- The value is none of those that stand for no servers; a token is not looked into. -/
def isStored : Option Value → Bool
  | none => false
  | some v => v ∉ [.null, .text "", .text "[]", .text "null"]

/-- `_m010_v2_to_v3_data`. -/
def m010V2ToV3Data : Program Catalog :=
  let settings : Program Catalog :=
    fetchSetting "media_servers" fun msRow =>
      if isStored msRow then
        singleServerKeys.foldr (fun key next => .write .data (deleteSetting key) next)
          (.commit .done)
      else .commit .done
  let deletionUnit : Program Catalog :=
    .read fun db =>
      if "deletion_unit" ∈ tableColumns db "libraries" then
        .write .data (backfillLibraries cfg "deletion_unit" (.text "episode")) settings
      else settings
  .read fun db =>
    if "server_id" ∈ tableColumns db "libraries" then
      .write .data (backfillLibraries cfg "server_id" (.text "0")) deletionUnit
    else deletionUnit

/-- The mark of a database that has become one of the third version. -/
def markV3 : Program Catalog :=
  .write .data (insertSetting "v3_migration_done" (.text "1")) (.commit .done)

/-- A cell that passes Python's truth test, as a text. -/
def cellText (v : Value) (default : String) : String :=
  match v with
  | .text s => if s = "" then default else s
  | .sealed s => s
  | .int n => if n = 0 then default else Int.repr n
  | _ => default

/-- The conditions of the rule that a library becomes, if it has any. -/
def migratedConditions (row : Row) : Option (List Condition) :=
  match cfg.loadConditions (cellText (row.cell "conditions") "[]"),
    cfg.loadSeerr (cellText (row.cell "seerr_conditions") "[]") with
  | some oldConds, some seerrConds =>
      let newConds := buildExpertConditions (oldConds.filterMap id) seerrConds
      if oldConds.isEmpty ∨ newConds.isEmpty then none else some newConds
  | _, _ => none

/-- `int(row.get("enabled", 1))`. -/
def enabledOf (row : Row) : Option ℤ :=
  match row.cell "enabled" with
  | .int n => some n
  | .text s => pyInt s
  | _ => none

/-- The name of the rule of a library. -/
def migratedName (row : Row) : String :=
  (match row.cell "name" with
    | .null => "None"
    | v => v.cast.getD "") ++ " (migré)"

/-- A rule is the one of a library: it has the name and the identifier. -/
def isRuleOf (row rule : Row) : Bool :=
  (rule.cell "name").cast.map cfg.collate = some (cfg.collate (migratedName row)) &&
    ((rule.cell "library_id").cast.bind fun s =>
      row.key.value.cast.map fun s' => decide (cfg.collate s = cfg.collate s')) = some true

/-- The columns of a rule that the migration writes. -/
def ruleColumns : List String :=
  ["name", "library_id", "conditions", "operator", "action", "enabled", "priority", "created_at"]

/-- `INSERT INTO expert_rules`. -/
def insertRule (row : Row) (newConds : List Condition) (enabled : ℤ)
    (db : Catalog) : Option Catalog :=
  match cfg.keepName (migratedName row), cfg.keepId row.key with
  | some name, some libraryId =>
      modify "expert_rules" ruleColumns (fun t => t.rows ++ [t.newRow
        [("name", .text name), ("library_id", libraryId),
          ("conditions", .text (cfg.dumpConditions newConds)),
          ("operator", .text (cellText (row.cell "logic") "AND")), ("action", .text "queue"),
          ("enabled", .int enabled), ("priority", .int 0), ("created_at", .generated)]]) db
  | _, _ => none

/-- The loop of `_m011_libraries_to_expert_rules`: each rule has a transaction of its own. -/
def rulesOfLibraries : List Row → Program Catalog
  | [] => markV3
  | row :: rows =>
      match migratedConditions cfg row with
      | none => rulesOfLibraries rows
      | some newConds =>
          .read fun db =>
            match db "expert_rules" with
            | none => .fail
            | some t =>
                if ∀ c ∈ ["name", "library_id"], c ∈ t.names then
                  if t.rows.any (isRuleOf cfg row) then .reconnect (rulesOfLibraries rows)
                  else
                    match enabledOf row with
                    | none => .fail
                    | some enabled =>
                        .write .data (insertRule cfg row newConds enabled)
                          (.commit (.reconnect (rulesOfLibraries rows)))
                else .fail

/-- `_m011_libraries_to_expert_rules`. -/
def m011LibrariesToExpertRules : Program Catalog :=
  fetchSetting "v3_migration_done" fun done =>
    if done.isSome then .done
    else
      .read fun db =>
        match db "libraries" with
        | none => markV3
        | some libraries =>
            if (db "expert_rules").isNone then markV3
            else if ∀ c ∈ ["name", "conditions", "logic", "seerr_conditions", "enabled"],
                c ∈ libraries.names then
              .reconnect
                (if libraries.rows.isEmpty then .done else rulesOfLibraries cfg libraries.rows)
            else .fail

/-- The settings in hours, and those in minutes. -/
def intervalKeys : List (String × String) :=
  [("scan_interval_hours", "scan_interval_minutes"),
    ("deletion_check_interval_hours", "deletion_check_interval_minutes")]

/-- `value.strip().isdigit()`, for the ten ASCII digits: the other ones, of which `int` raises on
some, are left out, as in `pyInt`. -/
def isDigits (s : String) : Bool := strip s ≠ "" && (strip s).toList.all Char.isDigit

/-- The loop of `_m012_interval_hours_to_minutes`. -/
def hoursToMinutes : List (String × String) → Program Catalog
  | [] => .commit .done
  | (hoursKey, minutesKey) :: rest =>
      fetchSetting hoursKey fun row =>
        if isDigits (opened row) then
          fetchSetting minutesKey fun existing =>
            let remove : Program Catalog :=
              .write .data (deleteSetting hoursKey) (hoursToMinutes rest)
            if existing.isSome then remove
            else
              match pyInt (opened row) with
              | none => .fail
              | some hours =>
                  .write .data (upsertSetting minutesKey (.text (Int.repr (hours * 60)))) remove
        else hoursToMinutes rest

/-- `_m012_interval_hours_to_minutes`. -/
def m012IntervalHoursToMinutes : Program Catalog := hoursToMinutes intervalKeys

/-- A log entry about an item that was left out. -/
def isVerbose (row : Row) : Bool :=
  match row.cell "message" with
  | .text s =>
      cfg.likePrefix s "Ignoré (non demandé sur Seerr)" ||
        cfg.likePrefix s "Ignoré (utilisateur Seerr"
  | _ => false

/-- `_m013_purge_verbose_scan_logs`: it commits if it has deleted something. -/
def m013PurgeVerboseScanLogs : Program Catalog :=
  .read fun db =>
    let purged := ((db "logs").map fun t => t.rows.any (isVerbose cfg)).getD false
    .write .data (modify "logs" ["message"] fun t => t.rows.filter fun row => !isVerbose cfg row)
      (if purged then .commit .done else .done)

/-! ### All migrations -/

/-- `_MIGRATIONS`. -/
def migrationStages : List (Stage String String Catalog) :=
  [⟨"m001", "Establish migration tracking baseline", m001NoOp⟩,
    ⟨"m002", "Ensure logs.seen_status column", m002EnsureSeenStatusOnLogs⟩,
    ⟨"m003", "Ensure expert_rules.grace_days column", m003EnsureGraceDaysOnExpertRules⟩,
    ⟨"m004", "Ensure refresh_tokens table", m004EnsureRefreshTokensTable cfg⟩,
    ⟨"m005", "Normalize library server_id: NULL/empty → '0'", m005NormalizeLibraryServerId cfg⟩,
    ⟨"m006", "Fix MariaDB expert_rules: add library_ids, grace_days",
      m006FixMariadbExpertRulesSchema cfg⟩,
    ⟨"m007", "Migrate legacy notified_* columns to notifications table",
      m007MigrateNotificationColumns cfg⟩,
    ⟨"m008", "Add job_id column to logs for job-run correlation", m008AddJobIdToLogs cfg⟩,
    ⟨"m009", "Promote legacy emby_url settings to media_servers[0]",
      m009MigrateLegacyEmbyToMediaServers cfg⟩,
    ⟨"m010", "v2→v3: backfill server_id, deletion_unit, remove legacy settings keys",
      m010V2ToV3Data cfg⟩,
    ⟨"m011", "Convert library conditions to expert_rules rows", m011LibrariesToExpertRules cfg⟩,
    ⟨"m012", "Convert interval settings from hours to minutes", m012IntervalHoursToMinutes⟩,
    ⟨"m013", "Purge verbose per-item scan log entries", m013PurgeVerboseScanLogs cfg⟩,
    ⟨"m014", "Add library_ids to seerr_user_rules (missing from MariaDB DDL)",
      m014AddLibraryIdsToSeerrUserRules cfg⟩,
    ⟨"m015", "Fix remaining MariaDB column gaps (seerr_user_rules.name, etc.)",
      m015FixRemainingMariadbColumnGaps cfg⟩,
    ⟨"m016", "Add media_queue.arr_server_url (multi-Radarr/Sonarr deletion routing)",
      m016AddArrServerUrlToMediaQueue⟩,
    ⟨"m017", "Ensure plex_overlays table (persist Plex overlay tracking)",
      m017EnsurePlexOverlaysTable cfg⟩]

end Migrations

/-- A database, with the rows of `schema_migrations` once there is that table: the identifier and
the description of each migration that is recorded. -/
structure MigratedDb where
  catalog : Catalog
  schemaMigrations : Option (List (String × String))

/-- `_ensure_migrations_table`. -/
def MigratedDb.ensured (db : MigratedDb) : Marked String String Catalog :=
  (db.catalog, db.schemaMigrations.getD [])

/-- `run_migrations`; nothing stands for a migration that fails. -/
def runMigrations (cfg : MigrationConfig) (ddlCommits : Bool)
    (db : MigratedDb) : Option MigratedDb :=
  (runStages ddlCommits (migrationStages cfg) db.ensured).map fun s => ⟨s.1, some s.2⟩

/-- What may be left of `run_migrations`: before its table is there, or behind that. -/
def InterruptedMigrations (cfg : MigrationConfig) (ddlCommits : Bool)
    (db left : MigratedDb) : Prop :=
  left = db ∨ ∃ t, InterruptedStages ddlCommits (migrationStages cfg) db.ensured t ∧
    left = ⟨t.1, some t.2⟩

end Hygie.Migrations
