/-
**The start of the application.**

At its start the application first makes the tables that are missing and writes the settings that
are missing with their defaults, and then runs the migrations.  So a migration that reads a setting
finds the default where nothing was stored, and the one that turns hours into minutes, which leaves
minutes alone that are there, finds them there always: the hours are deleted, and the minutes are
the default.

Main definitions:

* `defaultSettings` — the settings with their defaults;
* `initDbSqlite`, `initDbMariadb`, `startup` — what is done at the start;
* `Schema` — the tables and indexes that are declared.

Main results:

* `setting_seedDefaults` — **what the defaults leave of a setting**;
* `settings_startup` — **what a start leaves of an interval**;
* `startup_converts_iff` — **the hours become minutes exactly if that is the default anyway**.
-/

import Hygie.EngineChange
import Hygie.MigrationRestarts
import Hygie.SettingsStore

set_option relaxedAutoImplicit false
set_option autoImplicit false

namespace Hygie.Migrations

open Catalogs Transactions PyText

/-! ### The schema -/

/-- A declaration of a table: what creates it, the tables it refers to, and the columns that are
added to one that is there. -/
structure TableDecl where
  name : String
  table : Table
  needs : List String := []
  expected : List Column := []

/-- The tables and the indexes, with the columns they are on.  The settings never get a column. -/
structure Schema where
  tables : List TableDecl
  indexes : List (String × List String)
  settings_expected : ∀ decl ∈ tables, decl.name = "settings" → decl.expected = []

/-- `DEFAULT_SETTINGS`. -/
def defaultSettings : List (String × String) :=
  [("emby_leaving_soon_collection", ""), ("emby_leaving_soon_days", "30"),
    ("emby_leaving_soon_overlay", "false"), ("media_server_type", ""), ("media_servers", "[]"),
    ("radarr_url", ""), ("radarr_api_key", ""), ("radarr_servers", "[]"), ("sonarr_url", ""),
    ("sonarr_api_key", ""), ("sonarr_servers", "[]"), ("seerr_url", ""), ("seerr_api_key", ""),
    ("seerr_external_url", ""), ("qbit_url", ""), ("qbit_proxy_url", ""), ("qbit_user", ""),
    ("qbit_password", ""), ("qbit_action", "tag_only"), ("qbit_tag", "Supprimé-Hygie"),
    ("discord_webhook", ""), ("discord_webhook_alerts", ""), ("discord_notif_thresholds", "7,1"),
    ("discord_alert_deletion_error", "false"), ("discord_alert_deletion_error_mention", ""),
    ("discord_alert_deletion_error_msg", ""), ("discord_alert_scan_failure", "false"),
    ("discord_alert_scan_failure_mention", ""), ("discord_alert_scan_failure_msg", ""),
    ("discord_alert_seerr_failure", "false"), ("discord_alert_seerr_failure_mention", ""),
    ("discord_alert_seerr_failure_msg", ""), ("discord_alert_error_threshold", "3"),
    ("max_parallel_library_scans", "3"), ("dry_run", "false"), ("scan_interval_minutes", "360"),
    ("deletion_check_interval_minutes", "60"), ("log_level", "INFO"),
    ("deleted_retention_days", "90"), ("log_retention_days", "14"),
    ("job_history_retention_days", "90"), ("ui_language", "fr"),
    ("backup_path", "/app/data/backups"), ("backup_interval_hours", "24"),
    ("backup_retention_count", "7"), ("backup_enabled", "true"), ("plex_webhook_secret", ""),
    ("plex_tv_token", ""), ("plex_overlay_enabled", "false"), ("public_dashboard_slug", ""),
    ("public_dashboard_password", ""), ("public_dashboard_enabled", "false")]

/-! ### Tables of an older form -/

/-- A table that is renamed, made anew from its rows, and dropped: the rename fails if the other
name is taken, and the copy if a cell that is needed is `NULL`. -/
def rebuild (table legacy : String) (new : Table) (required : List String)
    (given : Option (Row → List (String × Value))) (db : Catalog) : Option Catalog :=
  (db table).bind fun old =>
    if (db legacy).isSome then none
    else
      match given with
      | none => some (Function.update db table (some new))
      | some given =>
          let rows := old.rows.map fun row => new.newRow (given row)
          if rows.all fun row => required.all fun c => row.cell c ≠ .null then
            some (Function.update db table (some { new with rows := rows }))
          else none

/-- A column of the old table, under the first of two names that it has. -/
def oldColumn (cols : List String) (first second : String) : Option String :=
  if first ∈ cols then some first else if second ∈ cols then some second else none

/-- `_migrate_logs_table`. -/
def migrateLogsTable (db : Catalog) : Option Catalog :=
  let cols := tableColumns db "logs"
  if (db "logs").isNone ∨ "ts" ∈ cols then some db
  else
    let new : Table :=
      { columns :=
          [{ name := "ts", type := "TEXT NOT NULL" }, { name := "level", type := "TEXT NOT NULL" },
            { name := "source", type := "TEXT NOT NULL" },
            { name := "message", type := "TEXT NOT NULL" }] }
    let given : Option (Row → List (String × Value)) :=
      if "timestamp" ∈ cols ∧ "level" ∈ cols ∧ "message" ∈ cols then
        some fun row =>
          [("ts", row.cell "timestamp"), ("level", row.cell "level"),
            ("source", if "source" ∈ cols then row.cell "source" else .text "system"),
            ("message", row.cell "message")]
      else none
    rebuild "logs" "logs_legacy" new ["ts", "level", "source", "message"] given db

/-- `_migrate_job_history_table`. -/
def migrateJobHistoryTable (db : Catalog) : Option Catalog :=
  let cols := tableColumns db "job_history"
  if (db "job_history").isNone ∨ ("job_type" ∈ cols ∧ "started_at" ∈ cols) then some db
  else
    let new : Table :=
      { columns :=
          [{ name := "job_type", type := "TEXT NOT NULL" },
            { name := "started_at", type := "TEXT NOT NULL" },
            { name := "finished_at", type := "TEXT" }, { name := "status", type := "TEXT" },
            { name := "message", type := "TEXT" }] }
    let copied (row : Row) (source : Option String) (target : String) : List (String × Value) :=
      (source.map fun c => (target, row.cell c)).toList
    let only (c : String) : Option String := if c ∈ cols then some c else none
    let given : Option (Row → List (String × Value)) :=
      match oldColumn cols "job_type" "type", oldColumn cols "started_at" "started" with
      | some typeCol, some startCol =>
          some fun row =>
            [("job_type", row.cell typeCol), ("started_at", row.cell startCol)] ++
              copied row (oldColumn cols "finished_at" "finished") "finished_at" ++
              copied row (only "status") "status" ++ copied row (only "message") "message"
      | _, _ => none
    rebuild "job_history" "job_history_legacy" new ["job_type", "started_at"] given db

/-! ### The steps -/

/-- `_ensure_columns`: the columns are read once, and a failure is passed over. -/
def ensureExpected (decl : TableDecl) (db : Catalog) : Catalog :=
  if decl.expected = [] ∨ (db decl.name).isNone then db
  else
    let existing := tableColumns db decl.name
    decl.expected.foldl (fun db column =>
      if column.name ∈ existing then db else (addColumn decl.name column db).getD db) db

/-- `CREATE INDEX`, which needs its columns. -/
def createIndex (index : String × List String) (db : Catalog) : Option Catalog :=
  (db index.1).bind fun t => if ∀ c ∈ index.2, c ∈ t.names then some db else none

/-- `CREATE TABLE IF NOT EXISTS` for every table. -/
def createTables (schema : Schema) (db : Catalog) : Option Catalog :=
  schema.tables.foldlM (fun db decl => createTable decl.name decl.table decl.needs db) db

/-- The indexes, one after the other. -/
def createIndexes (schema : Schema) (db : Catalog) : Option Catalog :=
  schema.indexes.foldlM (fun db index => createIndex index db) db

/-- A default is written for every setting that is not there: `INSERT OR IGNORE` on SQLite, an
`INSERT` behind a `SELECT` on MariaDB. -/
def seedDefaults (db : Catalog) : Option Catalog :=
  defaultSettings.foldlM (fun db s => insertSetting s.1 (.text s.2) db) db

section Steps

variable (cfg : MigrationConfig)

/-- A setting is encrypted if it is sensitive and plain. -/
def encryptRow (row : Row) : Row :=
  match row.cell "value" with
  | .text s =>
      if row.key ∈ sensitiveKeys.map Key.text ∧ s ≠ "" ∧ startsWith s "enc:" = false then
        row.set "value" (cfg.encryptValue s)
      else row
  | _ => row

/-- `_migrate_encrypt_settings`. -/
def migrateEncryptSettings (db : Catalog) : Option Catalog :=
  if cfg.hasKey then modify "settings" ["value"] (fun t => t.rows.map (encryptRow cfg)) db
  else some db

/-- The jobs that were running are marked as interrupted. -/
def markOrphans (db : Catalog) : Option Catalog :=
  modify "job_history" ["finished_at", "status", "message"]
    (fun t => t.rows.map fun row =>
      if row.cell "finished_at" = .null ∨ row.cell "status" = .null then
        ((row.set "finished_at" .generated).set "status" (.text "interrupted")).set "message"
          (.text "Interrompu (redémarrage)")
      else row) db

/-- `_init_db_sqlite`. -/
def initDbSqlite (schema : Schema) (db : Catalog) : Option Catalog := do
  let db ← migrateLogsTable db
  let db ← migrateJobHistoryTable db
  let db ← createTables schema db
  let db := schema.tables.foldl (fun db decl => ensureExpected decl db) db
  let db ← createIndexes schema db
  let db ← seedDefaults db
  let db ← migrateEncryptSettings cfg db
  markOrphans db

/-- `_init_db_mariadb`: an index that is there already is passed over. -/
def initDbMariadb (schema : Schema) (db : Catalog) : Option Catalog := do
  let db ← createTables schema db
  let db ← createIndexes schema db
  seedDefaults db

/-- `init_db`. -/
def initDb (schema : Schema) (db : Catalog) : Option Catalog :=
  if cfg.mariadb then initDbMariadb schema db else initDbSqlite cfg schema db

/-- The start: `init_db`, then `run_migrations`. -/
def startup (schema : Schema) (ddlCommits : Bool) (db : MigratedDb) : Option MigratedDb :=
  (initDb cfg schema db.catalog).bind fun catalog =>
    runMigrations cfg ddlCommits { db with catalog := catalog }

end Steps

/-! ### The settings during `init_db` -/

variable {cfg : MigrationConfig} {schema : Schema} {commits : Bool} {s t : Catalog}
  {key : String} {keys : String × String} {hours minutes : Value}

theorem rebuild_other {table legacy other : String} {new : Table} {required : List String}
    {given : Option (Row → List (String × Value))} (hne : other ≠ table)
    (h : rebuild table legacy new required given s = some t) : t other = s other := by
  obtain ⟨old, -, h⟩ := Option.bind_eq_some_iff.1 h
  split_ifs at h
  cases given with
  | none =>
      obtain rfl := Option.some.inj h
      exact Function.update_of_ne hne ..
  | some given =>
      dsimp only at h
      split_ifs at h
      obtain rfl := Option.some.inj h
      exact Function.update_of_ne hne ..

theorem migrateLogsTable_settings (h : migrateLogsTable s = some t) :
    t "settings" = s "settings" := by
  unfold migrateLogsTable at h
  dsimp only at h
  split_ifs at h
  all_goals first
    | exact congrFun (Option.some.inj h).symm _
    | exact rebuild_other (by decide) h

theorem migrateJobHistoryTable_settings (h : migrateJobHistoryTable s = some t) :
    t "settings" = s "settings" := by
  unfold migrateJobHistoryTable at h
  dsimp only at h
  split at h
  · exact congrFun (Option.some.inj h).symm _
  · exact rebuild_other (by decide) h

/-- Settings that are there are not made anew. -/
theorem createTables_settings {tab : Table} (hs : s "settings" = some tab)
    (h : createTables schema s = some t) : t "settings" = some tab := by
  refine foldlM_keeps (P := fun db : Catalog => db "settings" = some tab) ?_ hs h
  intro decl _ s t hs h
  by_cases hname : decl.name = "settings"
  · rw [createTable, hname, hs, if_pos Option.isSome_some] at h
    exact Option.some.inj h ▸ hs
  · exact (createTable_other h (Ne.symm hname)).trans hs

theorem ensureExpected_settings {decl : TableDecl}
    (hdecl : decl.name = "settings" → decl.expected = []) :
    ensureExpected decl s "settings" = s "settings" := by
  unfold ensureExpected
  split
  next => rfl
  next hnot =>
    have hname : "settings" ≠ decl.name := fun h => hnot (.inl (hdecl h.symm))
    have hstep : ∀ (existing : List String) (column : Column) (db : Catalog),
        (if column.name ∈ existing then db
          else (addColumn decl.name column db).getD db) "settings" = db "settings" := by
      intro existing column db
      split
      next => rfl
      next =>
        cases hadd : addColumn decl.name column db with
        | none => rfl
        | some db' => exact addColumn_other hadd hname
    dsimp only
    generalize tableColumns s decl.name = existing
    generalize decl.expected = columns
    clear hnot
    induction columns generalizing s with
    | nil => rfl
    | cons column columns ih =>
        rw [List.foldl_cons, ih]
        exact hstep existing column s

theorem foldl_ensureExpected_settings {decls : List TableDecl} (db : Catalog)
    (hdecls : ∀ decl ∈ decls, decl.name = "settings" → decl.expected = []) :
    (decls.foldl (fun db decl => ensureExpected decl db) db) "settings" = db "settings" := by
  induction decls generalizing db with
  | nil => rfl
  | cons decl decls ih =>
      obtain ⟨hdecl, hrest⟩ := List.forall_mem_cons.1 hdecls
      rw [List.foldl_cons, ih _ hrest]
      exact ensureExpected_settings hdecl

theorem createIndexes_eq (h : createIndexes schema s = some t) : t = s := by
  refine foldlM_keeps (P := fun db : Catalog => db = s) ?_ rfl h
  intro index _ db db' hdb hindex
  obtain ⟨tab, -, hcolumns⟩ := Option.bind_eq_some_iff.1 hindex
  split_ifs at hcolumns
  exact (Option.some.inj hcolumns).symm.trans hdb

theorem setting_congr (h : t "settings" = s "settings") : setting key t = setting key s := by
  rw [setting, setting, h]

/-! ### The defaults -/

theorem setting_insertSetting {v : Value} (h : insertSetting key v s = some t) :
    setting key t = (setting key s).map fun old => some (old.getD v) := by
  obtain ⟨tab, htab, hset⟩ := setting_modify key h
  rw [hset, setting, htab, Option.map_some, Option.map_some]
  split_ifs with hthere
  · obtain ⟨row, hrow⟩ := Option.isSome_iff_exists.1 hthere
    rw [hrow]
    rfl
  · obtain ⟨row, hrow, hcell⟩ := exists_findKey_upsert (.text key) "value" v tab.rows
    rw [hrow, Option.not_isSome_iff_eq_none.1 hthere, Option.map_some, hcell]
    rfl

theorem setting_insertSetting_of_ne {v : Value} {other : String} (hne : other ≠ key)
    (h : insertSetting other v s = some t) : setting key t = setting key s := by
  obtain ⟨tab, htab, hset⟩ := setting_modify key h
  rw [hset, setting, htab, Option.map_some]
  split_ifs
  · rfl
  · rw [findKey_upsert_of_ne (text_ne_text hne)]

/-- **What the defaults leave of a setting**: its value, or else its default if it has one. -/
theorem setting_foldlM_insertSetting {defaults : List (String × String)}
    (h : defaults.foldlM (fun db d => insertSetting d.1 (.text d.2) db) s = some t) :
    setting key t =
      (setting key s).map fun old => old.or ((defaults.lookup key).map Value.text) := by
  induction defaults generalizing s with
  | nil =>
      obtain rfl := Option.some.inj h
      simp
  | cons d defaults ih =>
      rw [List.foldlM_cons] at h
      obtain ⟨left, hleft, hrest⟩ := Option.bind_eq_some_iff.1 h
      rw [ih hrest, List.lookup_cons]
      by_cases hkey : d.1 = key
      · subst hkey
        rw [setting_insertSetting hleft]
        cases setting d.1 s with
        | none => rfl
        | some old => cases old <;> simp
      · have hne : (key == d.1) = false := beq_false_of_ne (Ne.symm hkey)
        rw [setting_insertSetting_of_ne hkey hleft, hne]

/-- Encrypting leaves the key of a row, and the value of a setting that is not sensitive. -/
theorem encryptRow_key (row : Row) : (encryptRow cfg row).key = row.key := by
  unfold encryptRow
  split
  next =>
    split
    next => rfl
    next => rfl
  next => rfl

theorem encryptRow_of_notMem {row : Row} (hkey : row.key ∉ sensitiveKeys.map Key.text) :
    encryptRow cfg row = row := by
  unfold encryptRow
  split
  next => exact if_neg fun h => hkey h.1
  next => rfl

theorem setting_migrateEncryptSettings (hkey : key ∉ sensitiveKeys)
    (h : migrateEncryptSettings cfg s = some t) : setting key t = setting key s := by
  unfold migrateEncryptSettings at h
  split at h
  next =>
    obtain ⟨tab, htab, hset⟩ := setting_modify key h
    rw [hset, setting, htab, Option.map_some]
    have hplain : Key.text key ∉ sensitiveKeys.map Key.text := by
      rw [List.mem_map]
      rintro ⟨key', hmem, heq⟩
      exact hkey (Key.text.inj heq ▸ hmem)
    have hfind : ∀ rows : List Row,
        findKey (.text key) (rows.map (encryptRow cfg)) = findKey (.text key) rows := by
      intro rows
      induction rows with
      | nil => rfl
      | cons row rows ih =>
          rw [List.map_cons, findKey_cons, findKey_cons, ih, encryptRow_key]
          split
          next hrow => rw [encryptRow_of_notMem (hrow ▸ hplain)]
          next => rfl
    rw [hfind]
  next => rw [Option.some.inj h]

/-! ### A start -/

/-- What `init_db` leaves of a setting that is not sensitive. -/
theorem setting_initDb {old : Option Value} (hold : setting key s = some old)
    (hkey : key ∉ sensitiveKeys) (h : initDb cfg schema s = some t) :
    setting key t = some (old.or ((defaultSettings.lookup key).map Value.text)) := by
  obtain ⟨tab, hs, -⟩ := Option.map_eq_some_iff.1 hold
  have hseed : ∀ {s t : Catalog}, setting key s = some old → seedDefaults s = some t →
      setting key t = some (old.or ((defaultSettings.lookup key).map Value.text)) := by
    intro s t hs h
    rw [setting_foldlM_insertSetting h, hs, Option.map_some]
  unfold initDb at h
  split at h
  next =>
    obtain ⟨tables, htables, h⟩ := Option.bind_eq_some_iff.1 h
    obtain ⟨indexed, hindexed, h⟩ := Option.bind_eq_some_iff.1 h
    refine hseed ?_ h
    rw [createIndexes_eq hindexed, setting_congr ((createTables_settings hs htables).trans hs.symm),
      hold]
  next =>
    obtain ⟨logs, hlogs, h⟩ := Option.bind_eq_some_iff.1 h
    obtain ⟨jobs, hjobs, h⟩ := Option.bind_eq_some_iff.1 h
    obtain ⟨tables, htables, h⟩ := Option.bind_eq_some_iff.1 h
    obtain ⟨indexed, hindexed, h⟩ := Option.bind_eq_some_iff.1 h
    obtain ⟨seeded, hseeded, h⟩ := Option.bind_eq_some_iff.1 h
    obtain ⟨encrypted, hencrypted, h⟩ := Option.bind_eq_some_iff.1 h
    have hbefore : jobs "settings" = some tab :=
      ((migrateJobHistoryTable_settings hjobs).trans (migrateLogsTable_settings hlogs)).trans hs
    have hexpected := foldl_ensureExpected_settings tables schema.settings_expected
    have hkept : indexed "settings" = s "settings" := by
      rw [createIndexes_eq hindexed, hexpected, createTables_settings hbefore htables, hs]
    rw [setting_congr (modify_other h (by decide)), setting_migrateEncryptSettings hkey hencrypted]
    exact hseed ((setting_congr hkept).trans hold) hseeded

/-- The migrations before the one of the intervals, and those behind it. -/
theorem migrationStages_eq :
    migrationStages cfg = (migrationStages cfg).take 11 ++
      ⟨"m012", "Convert interval settings from hours to minutes", m012IntervalHoursToMinutes⟩ ::
        (migrationStages cfg).drop 12 := rfl

/-- No migration but the one of the intervals touches a setting that is not one of its own. -/
theorem keeps_setting (old : Option (Option Value))
    (hkey : ∀ own ∈ "media_servers" :: "v3_migration_done" :: singleServerKeys, own ≠ key) :
    (∀ stage ∈ (migrationStages cfg).take 11,
        stage.program.Keeps fun db => setting key db = old) ∧
      ∀ stage ∈ (migrationStages cfg).drop 12,
        stage.program.Keeps fun db => setting key db = old := by
  have hP : Watches "settings" fun db => setting key db = old :=
    fun s t hs heq => (setting_congr heq).trans hs
  have hmark : markV3.Keeps fun db => setting key db = old :=
    .write (fun s t hs h => (setting_insertSetting_of_ne (hkey _ (by simp)) h).trans hs)
      (.commit .done)
  have hlibraries : ∀ c v s t, setting key s = old → backfillLibraries cfg c v s = some t →
      setting key t = old := fun c v => hP.modify (by decide)
  rw [migrationStages]
  simp only [List.take_succ_cons, List.take_zero, List.drop_succ_cons, List.drop_zero,
    List.forall_mem_cons, List.not_mem_nil, false_imp_iff, implies_true, and_true]
  refine ⟨⟨.done, keeps_ensureColumn hP (by decide), keeps_ensureColumn hP (by decide),
      byDialect_cases (keeps_ensureTable hP (by decide)) (keeps_ensureTable hP (by decide)),
      .write (hlibraries _ _) (.commit .done), keeps_m006 hP (by decide), keeps_m007 hP (by decide),
      keeps_ensureColumn hP (by decide), keeps_m009 ?_, keeps_m010 hlibraries ?_,
      keeps_m011 hP (by decide) hmark⟩,
    keeps_m013 hP (by decide), keeps_ensureColumn hP (by decide), keeps_ensureColumns hP (by simp),
    keeps_ensureColumn hP (by decide),
    byDialect_cases (keeps_ensureTable hP (by decide)) (keeps_ensureTable hP (by decide))⟩
  · intro v s t hs h
    exact (setting_upsertSetting_of_ne (hkey _ (by simp)) h).trans hs
  · intro own hown s t hs h
    exact (setting_deleteSetting_of_ne (hkey own (by simp [hown])) h).trans hs

/-- Where there are minutes, the hours are deleted and the minutes stay. -/
theorem setting_convertInterval (hne : keys.1 ≠ keys.2)
    (hhours : setting keys.1 s = some (some hours))
    (hdigits : isDigits (opened (some hours)) = true)
    (hminutes : setting keys.2 s = some (some minutes)) (h : convertInterval keys s = some t) :
    setting keys.1 t = some none ∧ setting keys.2 t = some (some minutes) := by
  rw [convertInterval, hhours, Option.bind_some, if_pos hdigits, hminutes, Option.bind_some,
    if_pos Option.isSome_some, Option.bind_some] at h
  exact ⟨setting_deleteSetting h, (setting_deleteSetting_of_ne hne h).trans hminutes⟩

theorem setting_run_m012 (hkeys : keys ∈ intervalKeys)
    (hhours : setting keys.1 s = some (some hours))
    (hdigits : isDigits (opened (some hours)) = true)
    (hminutes : setting keys.2 s = some (some minutes))
    (h : m012IntervalHoursToMinutes.run commits s = some t) :
    setting keys.1 t = some none ∧ setting keys.2 t = some (some minutes) := by
  rw [Program.run, m012IntervalHoursToMinutes, exec_hoursToMinutes, intervalKeys, List.foldlM_cons,
    Option.bind_eq_bind, Option.bind_eq_some_iff] at h
  obtain ⟨left, hfirst, h⟩ := h
  rw [List.foldlM_cons, Option.bind_eq_bind, Option.bind_eq_some_iff] at h
  obtain ⟨last, hsecond, h⟩ := h
  obtain rfl : last = t := Option.some.inj h
  rw [intervalKeys, List.mem_cons, List.mem_singleton] at hkeys
  rcases hkeys with rfl | rfl
  · obtain ⟨hdeleted, hkept⟩ := setting_convertInterval (by decide) hhours hdigits hminutes hfirst
    rw [setting_convertInterval_of_ne hsecond (by decide) (by decide),
      setting_convertInterval_of_ne hsecond (by decide) (by decide)]
    exact ⟨hdeleted, hkept⟩
  · refine setting_convertInterval (by decide) ?_ hdigits ?_ hsecond
    · rw [setting_convertInterval_of_ne hfirst (by decide) (by decide), hhours]
    · rw [setting_convertInterval_of_ne hfirst (by decide) (by decide), hminutes]

/-- What the migrations leave of an interval that is there in hours and in minutes. -/
theorem settings_runMigrations {db final : MigratedDb} (hkeys : keys ∈ intervalKeys)
    (hhours : setting keys.1 db.catalog = some (some hours))
    (hdigits : isDigits (opened (some hours)) = true)
    (hminutes : setting keys.2 db.catalog = some (some minutes))
    (hnew : "m012" ∉ db.ensured.2.map Prod.fst) (h : runMigrations cfg commits db = some final) :
    setting keys.1 final.catalog = some none ∧
      setting keys.2 final.catalog = some (some minutes) := by
  have hown : ∀ own ∈ "media_servers" :: "v3_migration_done" :: singleServerKeys,
      own ≠ keys.1 ∧ own ≠ keys.2 := by
    rw [intervalKeys, List.mem_cons, List.mem_singleton] at hkeys
    rcases hkeys with rfl | rfl <;> decide
  have hkeep : ∀ (key : String) (old : Option (Option Value)), key = keys.1 ∨ key = keys.2 → _ :=
    fun key old hkey => @keeps_setting cfg key old fun own hmem =>
      hkey.elim (fun h => h ▸ (hown own hmem).1) fun h => h ▸ (hown own hmem).2
  unfold runMigrations at h
  obtain ⟨marked, hrun, rfl⟩ := Option.map_eq_some_iff.1 h
  rw [migrationStages_eq, runStages_append] at hrun
  obtain ⟨before, hbefore, hrun⟩ := Option.bind_eq_some_iff.1 hrun
  -- The first eleven migrations leave the interval alone, and they do not mark the twelfth.
  have hhours' := keeps_of_runStages (hkeep keys.1 _ (.inl rfl)).1 hhours hbefore
  have hminutes' := keeps_of_runStages (hkeep keys.2 _ (.inr rfl)).1 hminutes hbefore
  have hnew' : "m012" ∉ before.2.map Prod.fst := by
    intro hmarked
    rcases mark_of_runStages hbefore hmarked with hold | hstage
    · exact hnew hold
    · have hids : ((migrationStages cfg).take 11).map Stage.id =
          ["m001", "m002", "m003", "m004", "m005", "m006", "m007", "m008", "m009", "m010",
            "m011"] := rfl
      rw [hids] at hstage
      exact absurd hstage (by decide)
  rw [runStages, if_neg hnew'] at hrun
  obtain ⟨converted, hconverted, hafter⟩ := Option.bind_eq_some_iff.1 hrun
  obtain ⟨hdeleted, hkept⟩ := setting_run_m012 hkeys hhours' hdigits hminutes' hconverted
  exact ⟨keeps_of_runStages (hkeep keys.1 _ (.inl rfl)).2 hdeleted hafter,
    keeps_of_runStages (hkeep keys.2 _ (.inr rfl)).2 hkept hafter⟩

/-- The default of an interval. -/
theorem isSome_lookup_of_mem (hkeys : keys ∈ intervalKeys) :
    (defaultSettings.lookup keys.2).isSome = true := by
  rw [intervalKeys, List.mem_cons, List.mem_singleton] at hkeys
  rcases hkeys with rfl | rfl <;> decide +kernel

/-- **What a start leaves of an interval**: of hours that no minutes stand beside, the default. -/
theorem settings_startup {db final : MigratedDb} (hkeys : keys ∈ intervalKeys)
    (hhours : setting keys.1 db.catalog = some (some hours))
    (hdigits : isDigits (opened (some hours)) = true)
    (hnone : setting keys.2 db.catalog = some none)
    (hnew : "m012" ∉ db.ensured.2.map Prod.fst)
    (h : startup cfg schema commits db = some final) :
    setting keys.1 final.catalog = some none ∧
      setting keys.2 final.catalog =
        some ((defaultSettings.lookup keys.2).map Value.text) := by
  have hplain : keys.1 ∉ sensitiveKeys ∧ keys.2 ∉ sensitiveKeys := by
    rw [intervalKeys, List.mem_cons, List.mem_singleton] at hkeys
    rcases hkeys with rfl | rfl <;> decide
  obtain ⟨catalog, hinit, hrun⟩ := Option.bind_eq_some_iff.1 h
  have hhours' := setting_initDb hhours hplain.1 hinit
  have hminutes' := setting_initDb hnone hplain.2 hinit
  obtain ⟨default, hdefault⟩ := Option.isSome_iff_exists.1 (isSome_lookup_of_mem hkeys)
  rw [Option.some_or] at hhours'
  rw [Option.none_or, hdefault, Option.map_some] at hminutes'
  rw [hdefault, Option.map_some]
  refine settings_runMigrations hkeys hhours' hdigits hminutes' ?_ hrun
  exact hnew

/-- The minutes that a text in hours stands for. -/
def minutesOf (text : String) : Option String := (pyInt text).map fun h => Int.repr (60 * h)

/-- **Exactly when the hours become minutes**: as many minutes have to be the default. -/
theorem startup_converts_iff {db final : MigratedDb} {text : String} (hkeys : keys ∈ intervalKeys)
    (hhours : setting keys.1 db.catalog = some (some (.text text)))
    (hdigits : isDigits text = true) (hnone : setting keys.2 db.catalog = some none)
    (hnew : "m012" ∉ db.ensured.2.map Prod.fst)
    (hstart : startup cfg schema commits db = some final) :
    (setting keys.2 final.catalog = some ((minutesOf text).map Value.text) ∧
        setting keys.1 final.catalog = some none) ↔
      defaultSettings.lookup keys.2 = minutesOf text := by
  obtain ⟨hdeleted, hminutes⟩ := settings_startup hkeys hhours hdigits hnone hnew hstart
  rw [and_iff_left hdeleted, hminutes, Option.some.injEq]
  have hinjective : Function.Injective Value.text := fun _ _ => Value.text.inj
  exact (Option.map_injective hinjective).eq_iff

/-! ### Twelve hours -/

/-- A table that is declared, by the names of its columns; the primary key is no column. -/
def declared (t : EngineChange.TableSchema) : TableDecl where
  name := t.name
  table :=
    { columns :=
        (t.columns.filter fun c => t.keys.head? ≠ some [c]).map fun c => { name := c, type := "" } }

/-- The tables of SQLite. -/
def sqliteSchema : Schema where
  tables := EngineChange.sqliteTables.map declared
  indexes := [("logs", ["ts"]), ("media_queue", ["status"]), ("rate_limit", ["key", "ts"])]
  settings_expected := by
    intro decl hdecl _
    obtain ⟨t, -, rfl⟩ := List.mem_map.1 hdecl
    rfl

/-- A database that has its settings only, and among them a number of hours. -/
def hoursDb (hours : String) : MigratedDb where
  catalog := fun table =>
    if table = "settings" then
      some (textTable ["value"] [("scan_interval_hours", [("value", .text hours)])])
    else none
  schemaMigrations := none

/-- The same database after a start. -/
def upgradedDb (hours : String) : MigratedDb :=
  (startup plainConfig sqliteSchema false (hoursDb hours)).getD (hoursDb hours)

theorem startup_twelveHours :
    startup plainConfig sqliteSchema false (hoursDb "12") = some (upgradedDb "12") := by
  have hsome : (startup plainConfig sqliteSchema false (hoursDb "12")).isSome = true := by
    decide +kernel
  obtain ⟨final, hfinal⟩ := Option.isSome_iff_exists.1 hsome
  rw [upgradedDb, hfinal, Option.getD_some]

theorem startup_converts_iff_twelveHours :
    (setting "scan_interval_minutes" (upgradedDb "12").catalog =
          some ((minutesOf "12").map Value.text) ∧
        setting "scan_interval_hours" (upgradedDb "12").catalog = some none) ↔
      defaultSettings.lookup "scan_interval_minutes" = minutesOf "12" :=
  @startup_converts_iff plainConfig sqliteSchema false
    ("scan_interval_hours", "scan_interval_minutes") (hoursDb "12") (upgradedDb "12") "12"
    List.mem_cons_self rfl (by decide +kernel) rfl (by decide) startup_twelveHours

/-- Twelve hours become the six hours of the default. -/
theorem not_startup_converts_twelveHours :
    ¬ ∀ (cfg : MigrationConfig) (schema : Schema) (commits : Bool) (keys : String × String)
        (db final : MigratedDb) (text : String), keys ∈ intervalKeys →
      setting keys.1 db.catalog = some (some (.text text)) → isDigits text = true →
      setting keys.2 db.catalog = some none → "m012" ∉ db.ensured.2.map Prod.fst →
      startup cfg schema commits db = some final →
        setting keys.2 final.catalog = some ((minutesOf text).map Value.text) ∧
          setting keys.1 final.catalog = some none := by
  intro hall
  have hdigits : isDigits (opened (some (.text "12"))) = true := by decide +kernel
  obtain ⟨hminutes, -⟩ := hall plainConfig sqliteSchema false _ (hoursDb "12") _ "12"
    List.mem_cons_self rfl hdigits rfl (by decide) startup_twelveHours
  obtain ⟨-, hdefault⟩ :=
    settings_startup List.mem_cons_self rfl hdigits rfl (by decide) startup_twelveHours
  have hminutes' : minutesOf "12" = some "720" := congrArg _ (pyInt_repr 12)
  rw [hdefault, hminutes'] at hminutes
  revert hminutes
  decide +kernel

end Hygie.Migrations
