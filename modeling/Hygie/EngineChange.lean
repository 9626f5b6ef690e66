/-
**Changing the database engine.**

One tool copies a database of SQLite to MariaDB, table by table, and another one copies it back to a
new file.  Both go by a list of tables of their own, and both leave `plex_overlays` out of it, so
that its rows are lost.  The rows of the other tables come back if they survive the columns of
MariaDB, if no two of them clash there, and if the rows that they refer to are there.

What the engines do with values is a parameter: what a column of MariaDB keeps of a value, how it
compares values, and what a column of SQLite makes of what comes back.

Main definitions:

* `sqliteTables`, `mariadbTables` — the two schemas;
* `migrateToMariadb`, `migrateToSqlite`, `roundTrip` — the tools;
* `Reproduces` — every row comes back;
* `Fits` — what the rows of a table need in MariaDB.

Main results:

* `copied_columns` — no column of a copied table is forgotten;
* `migrateToMariadb_eq_some_iff` — what the first tool leaves;
* `reproduces_iff` — **exactly when every row comes back**.
-/

import Hygie.Loads
import Hygie.Transactions

set_option relaxedAutoImplicit false
set_option autoImplicit false

namespace Hygie.EngineChange

open Loads

/-! ### The schemas -/

/-- A value of a column. -/
inductive SqlValue
  | null
  | integer (n : ℤ)
  | real (x : ℚ)
  | text (s : String)
  | blob (bytes : List UInt8)
  deriving DecidableEq

/-- A row, by the names of its columns. -/
abbrev Row : Type := String → SqlValue

/-- What a table declares: its columns, those that are not `NULL`, its unique keys, and the columns
that refer to a column of another table. -/
structure TableSchema where
  name : String
  columns : List String
  required : List String
  keys : List (List String)
  references : List (String × String × String) := []
  deriving DecidableEq

/-- `_TABLES`. -/
def sqliteTables : List TableSchema :=
  [{ name := "settings"
     columns := ["key", "value"]
     required := ["value"]
     keys := [["key"]] },
    { name := "users"
      columns := ["id", "username", "password_hash", "created_at"]
      required := ["username", "password_hash", "created_at"]
      keys := [["id"], ["username"]] },
    { name := "refresh_tokens"
      columns := ["id", "user_id", "token_hash", "expires_at", "created_at", "revoked"]
      required := ["user_id", "token_hash", "expires_at", "created_at", "revoked"]
      keys := [["id"], ["token_hash"]]
      references := [("user_id", "users", "id")] },
    { name := "libraries"
      columns :=
        ["id", "name", "emby_library_id", "conditions", "logic", "grace_days", "seerr_conditions",
         "enabled", "created_at", "server_id", "deletion_unit"]
      required :=
        ["name", "emby_library_id", "conditions", "logic", "grace_days", "seerr_conditions",
         "enabled", "deletion_unit"]
      keys := [["id"]] },
    { name := "media_queue"
      columns :=
        ["id", "emby_id", "title", "media_type", "library_id", "library_name", "file_path",
         "torrent_hash", "poster_url", "tmdb_id", "seerr_id", "seerr_user_id", "seerr_username",
         "seerr_discord_id", "seerr_request_url", "radarr_id", "sonarr_id", "detected_at",
         "delete_at", "added_date", "last_played", "status", "ignored", "notified_30d",
         "notified_7d", "notified_1d", "notified_now", "notified_detected", "notified_thresholds",
         "sonarr_series_id", "season_number", "plex_rating_key", "view_count", "arr_server_url"]
      required :=
        ["emby_id", "title", "media_type", "library_id", "library_name", "file_path",
         "detected_at", "delete_at", "status"]
      keys := [["id"], ["emby_id"]] },
    { name := "ignored_media"
      columns :=
        ["id", "emby_id", "title", "media_type", "library_id", "library_name", "file_path",
         "poster_url", "tmdb_id", "seerr_id", "seerr_user_id", "seerr_username",
         "seerr_request_url", "radarr_id", "sonarr_id", "added_date", "last_played", "reason",
         "ignored_at", "expire_at"]
      required := ["emby_id", "title", "ignored_at"]
      keys := [["id"], ["emby_id"]] },
    { name := "seerr_user_rules"
      columns :=
        ["id", "name", "seerr_user_id", "seerr_username", "library_id", "library_ids",
         "grace_days", "enabled", "discord_id", "created_at"]
      required := ["name", "seerr_user_id", "seerr_username", "library_id", "grace_days", "enabled"]
      keys := [["id"]] },
    { name := "logs"
      columns := ["id", "ts", "level", "source", "message", "category", "seen_status", "job_id"]
      required := ["ts", "level", "source", "message"]
      keys := [["id"]] },
    { name := "job_history"
      columns := ["id", "job_type", "started_at", "finished_at", "status", "message", "result"]
      required := ["job_type", "started_at"]
      keys := [["id"]] },
    { name := "stats_history"
      columns :=
        ["id", "ts", "total_deleted", "total_scanned", "space_freed_bytes", "month", "library_id"]
      required := ["ts", "month"]
      keys := [["id"]] },
    { name := "rate_limit"
      columns := ["key", "ts"]
      required := ["key", "ts"]
      keys := [] },
    { name := "expert_rules"
      columns :=
        ["id", "name", "library_id", "library_ids", "conditions", "operator", "action",
         "grace_days", "enabled", "priority", "created_at"]
      required :=
        ["name", "conditions", "operator", "action", "grace_days", "enabled", "priority"]
      keys := [["id"]] },
    { name := "notifications"
      columns := ["id", "media_id", "threshold", "sent_at"]
      required := ["media_id", "threshold"]
      keys := [["id"], ["media_id", "threshold"]]
      references := [("media_id", "media_queue", "id")] },
    { name := "plex_overlays"
      columns := ["id", "server_id", "rating_key", "applied_at"]
      required := ["server_id", "rating_key", "applied_at"]
      keys := [["id"], ["server_id", "rating_key"]] }]

/-- `MARIADB_TABLES`. -/
def mariadbTables : List TableSchema :=
  [{ name := "settings"
     columns := ["key", "value"]
     required := ["key", "value"]
     keys := [["key"]] },
    { name := "users"
      columns := ["id", "username", "password_hash", "created_at"]
      required := ["id", "username", "password_hash", "created_at"]
      keys := [["id"], ["username"]] },
    { name := "refresh_tokens"
      columns := ["id", "user_id", "token_hash", "expires_at", "created_at", "revoked"]
      required := ["id", "user_id", "token_hash", "expires_at", "created_at", "revoked"]
      keys := [["id"], ["token_hash"]]
      references := [("user_id", "users", "id")] },
    { name := "libraries"
      columns :=
        ["id", "name", "emby_library_id", "conditions", "logic", "grace_days", "seerr_conditions",
         "enabled", "created_at", "server_id", "deletion_unit"]
      required :=
        ["id", "name", "emby_library_id", "conditions", "logic", "grace_days", "seerr_conditions",
         "enabled", "deletion_unit"]
      keys := [["id"]] },
    { name := "media_queue"
      columns :=
        ["id", "emby_id", "title", "media_type", "library_id", "library_name", "file_path",
         "torrent_hash", "poster_url", "tmdb_id", "seerr_id", "seerr_user_id", "seerr_username",
         "seerr_discord_id", "seerr_request_url", "radarr_id", "sonarr_id", "detected_at",
         "delete_at", "added_date", "last_played", "status", "ignored", "notified_30d",
         "notified_7d", "notified_1d", "notified_now", "notified_detected", "notified_thresholds",
         "sonarr_series_id", "season_number", "plex_rating_key", "view_count", "arr_server_url"]
      required :=
        ["id", "emby_id", "title", "media_type", "library_id", "library_name", "file_path",
         "detected_at", "delete_at", "status"]
      keys := [["id"], ["emby_id"]] },
    { name := "ignored_media"
      columns :=
        ["id", "emby_id", "title", "media_type", "library_id", "library_name", "file_path",
         "poster_url", "tmdb_id", "seerr_id", "seerr_user_id", "seerr_username",
         "seerr_request_url", "radarr_id", "sonarr_id", "added_date", "last_played", "reason",
         "ignored_at", "expire_at"]
      required := ["id", "emby_id", "title", "ignored_at"]
      keys := [["id"], ["emby_id"]] },
    { name := "seerr_user_rules"
      columns :=
        ["id", "name", "seerr_user_id", "seerr_username", "library_id", "library_ids",
         "grace_days", "enabled", "discord_id", "created_at"]
      required :=
        ["id", "name", "seerr_user_id", "seerr_username", "library_id", "grace_days", "enabled"]
      keys := [["id"]] },
    { name := "logs"
      columns := ["id", "ts", "level", "source", "message", "category", "seen_status", "job_id"]
      required := ["id", "ts", "level", "source", "message"]
      keys := [["id"]] },
    { name := "job_history"
      columns := ["id", "job_type", "started_at", "finished_at", "status", "message", "result"]
      required := ["id", "job_type", "started_at"]
      keys := [["id"]] },
    { name := "stats_history"
      columns :=
        ["id", "ts", "total_deleted", "total_scanned", "space_freed_bytes", "month", "library_id"]
      required := ["id", "ts", "month"]
      keys := [["id"]] },
    { name := "rate_limit"
      columns := ["key", "ts"]
      required := ["key", "ts"]
      keys := [] },
    { name := "expert_rules"
      columns :=
        ["id", "name", "library_id", "library_ids", "conditions", "operator", "action",
         "grace_days", "enabled", "priority", "created_at"]
      required :=
        ["id", "name", "conditions", "operator", "action", "grace_days", "enabled", "priority"]
      keys := [["id"]] },
    { name := "notifications"
      columns := ["id", "media_id", "threshold", "sent_at"]
      required := ["id", "media_id", "threshold"]
      keys := [["id"], ["media_id", "threshold"]]
      references := [("media_id", "media_queue", "id")] },
    { name := "plex_overlays"
      columns := ["id", "server_id", "rating_key", "applied_at"]
      required := ["id", "server_id", "rating_key", "applied_at"]
      keys := [["id"], ["server_id", "rating_key"]] }]

/-- A table of a schema by its name. -/
def schemaOf (tables : List TableSchema) (name : String) : TableSchema :=
  (tables.find? fun t => t.name = name).getD
    { name := name, columns := [], required := [], keys := [] }

/-- `ORDERED_TABLES` of `migrate_to_mariadb`. -/
def toMariadbTables : List String :=
  ["settings", "users", "refresh_tokens", "libraries", "media_queue", "ignored_media",
   "seerr_user_rules", "logs", "job_history", "stats_history", "rate_limit", "expert_rules",
   "notifications"]

/-- `ORDERED_TABLES` of `migrate_to_sqlite`. -/
def toSqliteTables : List String :=
  ["settings", "users", "refresh_tokens", "libraries", "media_queue", "ignored_media",
   "seerr_user_rules", "logs", "job_history", "stats_history", "rate_limit", "expert_rules",
   "notifications"]

/-! ### The tools -/

/-- The engines, and what the schema of MariaDB starts with. -/
structure Engines where
  /-- What a column of MariaDB keeps of a value; nothing stands for a value that it refuses. -/
  stores : String → String → SqlValue → Option SqlValue
  /-- The values of the columns that are not given. -/
  mariadbDefault : String → String → SqlValue
  sqliteDefault : String → String → SqlValue
  /-- MariaDB compares two values as equal. -/
  same : SqlValue → SqlValue → Bool
  /-- What a column of SQLite makes of a value that comes back. -/
  returns : String → String → SqlValue → SqlValue
  /-- The order in which MariaDB lists the rows of a table. -/
  listed : String → List Row → List Row
  /-- `DEFAULT_SETTINGS`. -/
  defaults : List (String × String)

/-- A table of the source. -/
structure SourceTable where
  columns : List String
  rows : List Row

/-- A database, by the names of its tables. -/
abbrev Database : Type := String → List Row

/-- Two rows agree in a unique key. -/
def clash (same : SqlValue → SqlValue → Bool) (keys : List (List String)) (a b : Row) : Bool :=
  keys.any fun key => key.all fun c => same (a c) (b c)

/-- SQLite compares two values as equal; `NULL` is equal to nothing. -/
def sqliteSame (v w : SqlValue) : Bool := v ≠ .null && v = w

section Tools

variable (eng : Engines)

/-- What MariaDB keeps of a row, if it takes it. -/
def storeRow (t : TableSchema) (row : Row) : Option Row :=
  if (∀ c ∈ t.required, row c ≠ .null) ∧ ∀ c ∈ t.columns, (eng.stores t.name c (row c)).isSome then
    some fun c => if c ∈ t.columns then (eng.stores t.name c (row c)).getD .null else .null
  else none

/-- The rows that a row refers to are there. -/
def refers (db : Database) (t : TableSchema) (row : Row) : Bool :=
  t.references.all fun ref =>
    row ref.1 = .null || (db ref.2.1).any fun parent => eng.same (parent ref.2.2) (row ref.1)

/-- A row of `DEFAULT_SETTINGS`. -/
def settingRow (setting : String × String) : Row := fun c =>
  if c = "key" then .text setting.1 else if c = "value" then .text setting.2 else .null

/-- `_init_db_mariadb`, on an empty database. -/
def initDbMariadb : Option Database :=
  eng.defaults.foldlM (fun db setting =>
    if (db "settings").any fun row => eng.same (row "key") (.text setting.1) then some db
    else
      (storeRow eng (schemaOf mariadbTables "settings") (settingRow setting)).bind fun row =>
        if (db "settings").any (clash eng.same [["key"]] · row) then none
        else some (Function.update db "settings" (db "settings" ++ [row])))
    fun _ => []

/-- `REPLACE INTO`.  The tables that refer to a replaced row are still empty. -/
def replaceInto (t : TableSchema) (db : Database) (row : Row) : Option Database :=
  (storeRow eng t row).bind fun stored =>
    if refers eng db t stored then
      some (Function.update db t.name (replaceRow (clash eng.same t.keys) (db t.name) stored))
    else none

/-- `_write_mariadb_table`. -/
def writeMariadbTable (source : SourceTable) (t : TableSchema) (db : Database) : Option Database :=
  let cols := source.columns.filter (· ∈ t.columns)
  source.rows.foldlM (fun db row =>
    replaceInto eng t db fun c => if c ∈ cols then row c else eng.mariadbDefault t.name c) db

/-- `migrate` of `migrate_to_mariadb`. -/
def migrateToMariadb (sqlite : String → Option SourceTable) : Option Database :=
  (initDbMariadb eng).bind fun db =>
    toMariadbTables.foldlM (fun db name =>
      match sqlite name with
      | none => some db
      | some source => writeMariadbTable eng source (schemaOf mariadbTables name) db) db

/-- A row as it comes back: the columns of MariaDB, and the defaults of the others. -/
def returnRow (t : TableSchema) (row : Row) : Row := fun c =>
  if c ∈ t.columns then eng.returns t.name c (row c) else eng.sqliteDefault t.name c

/-- `INSERT OR IGNORE`: a row with a `NULL` that is not allowed is passed over, too. -/
def insertOrIgnore (t : TableSchema) (rows : List Row) (row : Row) : List Row :=
  if ∀ c ∈ t.required, row c ≠ .null then ignoreRow (clash sqliteSame t.keys) rows row else rows

/-- `_write_sqlite_table`: a column that SQLite does not have is an error. -/
def writeSqliteTable (name : String) (rows : List Row) : Option (List Row) :=
  let cols := (schemaOf mariadbTables name).columns
  let t := schemaOf sqliteTables name
  if rows = [] then some []
  else if ∀ c ∈ cols, c ∈ t.columns then
    some ((rows.map (returnRow eng (schemaOf mariadbTables name))).foldl (insertOrIgnore t) [])
  else none

/-- `migrate` of `migrate_to_sqlite`, to a new file. -/
def migrateToSqlite (db : Database) : Option Database :=
  toSqliteTables.foldlM (fun out name =>
      (writeSqliteTable eng name (eng.listed name (db name))).map (Function.update out name))
    fun _ => []

/-- To MariaDB and back. -/
def roundTrip (sqlite : String → Option SourceTable) : Option Database :=
  (migrateToMariadb eng sqlite).bind (migrateToSqlite eng)

end Tools

/-! ### What is asked -/

/-- A database at the current schema: it has the columns of the schema, perhaps among others, and
keeps its constraints. -/
structure SqliteDb where
  tables : String → SourceTable
  columns : ∀ t ∈ sqliteTables, ∀ c ∈ t.columns, c ∈ (tables t.name).columns
  required : ∀ t ∈ sqliteTables, ∀ row ∈ (tables t.name).rows, ∀ c ∈ t.required, row c ≠ .null
  apart : ∀ t ∈ sqliteTables, Apart (clash sqliteSame t.keys) (tables t.name).rows

/-- The rows of a database, by its tables. -/
def SqliteDb.rows (db : SqliteDb) (name : String) : List Row := (db.tables name).rows

/-- The columns of the current schema. -/
def current (t : TableSchema) (row : Row) : Row := fun c => if c ∈ t.columns then row c else .null

/-- Every row comes back with its values. -/
def Reproduces (eng : Engines) (db : SqliteDb) : Prop :=
  ∃ out, roundTrip eng (fun name => some (db.tables name)) = some out ∧
    ∀ t ∈ sqliteTables,
      ((db.tables t.name).rows.map (current t)).Subperm ((out t.name).map (current t))

/-- What MariaDB keeps of a row that it takes. -/
def stored (eng : Engines) (t : TableSchema) (row : Row) : Row :=
  (storeRow eng t row).getD fun _ => .null

/-- The rows of a table survive the columns of MariaDB, do not clash there, and refer to rows that
are there. -/
structure Fits (eng : Engines) (db : SqliteDb) (t : TableSchema) : Prop where
  required : ∀ row ∈ (db.tables t.name).rows, ∀ c ∈ t.required, row c ≠ .null
  survives : ∀ row ∈ (db.tables t.name).rows, ∀ c ∈ t.columns,
    ∃ v, eng.stores t.name c (row c) = some v ∧ eng.returns t.name c v = row c
  apart : Apart (clash eng.same t.keys) ((db.tables t.name).rows.map (stored eng t))
  refers : ∀ row ∈ (db.tables t.name).rows, ∀ ref ∈ t.references,
    stored eng t row ref.1 = .null ∨ ∃ parent ∈ (db.tables ref.2.1).rows,
      eng.same (stored eng (schemaOf mariadbTables ref.2.1) parent ref.2.2)
        (stored eng t row ref.1) = true

/-- What the engines are relied on for: a value that comes back from a column of MariaDB is kept
there as it was, values that come back equal were equal there, `NULL` comes only from `NULL`,
equality is symmetric, a table is listed as a whole, and the schema can be created. -/
structure Engines.Documented (eng : Engines) : Prop where
  stores_null : ∀ t c v, eng.stores t c v = some .null → v = .null
  returns_null : ∀ t c v, eng.returns t c v = .null → v = .null
  again : ∀ t c v w, eng.stores t c v = some w → eng.stores t c (eng.returns t c w) = some w
  same_of_returns : ∀ t c v w, eng.returns t c v = eng.returns t c w → eng.returns t c v ≠ .null →
    eng.same v w = true
  symm : ∀ v w, eng.same v w = eng.same w v
  listed : ∀ t rows, (eng.listed t rows).Perm rows
  created : (initDbMariadb eng).isSome = true

/-! ### The schemas agree -/

section Schemas

variable {t : TableSchema} {name : String}

/-- No column of a copied table is forgotten, and the unique keys are the same. -/
theorem copied_columns (hname : name ∈ toMariadbTables) :
    schemaOf sqliteTables name ∈ sqliteTables ∧ (schemaOf sqliteTables name).name = name ∧
      (schemaOf mariadbTables name).name = name ∧
      (schemaOf mariadbTables name).columns = (schemaOf sqliteTables name).columns ∧
      (schemaOf mariadbTables name).keys = (schemaOf sqliteTables name).keys := by
  have hall : ∀ name ∈ toMariadbTables, schemaOf sqliteTables name ∈ sqliteTables ∧
      (schemaOf sqliteTables name).name = name ∧ (schemaOf mariadbTables name).name = name ∧
      (schemaOf mariadbTables name).columns = (schemaOf sqliteTables name).columns ∧
      (schemaOf mariadbTables name).keys = (schemaOf sqliteTables name).keys := by
    decide +kernel
  exact hall name hname

/-- Every table but one is copied. -/
theorem mem_sqliteTables (ht : t ∈ sqliteTables) :
    t.name = "plex_overlays" ∨ t.name ∈ toMariadbTables ∧ schemaOf sqliteTables t.name = t := by
  have hall : ∀ t ∈ sqliteTables, t.name = "plex_overlays" ∨
      t.name ∈ toMariadbTables ∧ schemaOf sqliteTables t.name = t := by
    decide +kernel
  exact hall t ht

/-- What must not be `NULL` is a column. -/
theorem required_subset (hname : name ∈ toMariadbTables) :
    (∀ c ∈ (schemaOf mariadbTables name).required, c ∈ (schemaOf mariadbTables name).columns) ∧
      ∀ c ∈ (schemaOf sqliteTables name).required, c ∈ (schemaOf sqliteTables name).columns := by
  have hall : ∀ name ∈ toMariadbTables,
      (∀ c ∈ (schemaOf mariadbTables name).required, c ∈ (schemaOf mariadbTables name).columns) ∧
        ∀ c ∈ (schemaOf sqliteTables name).required, c ∈ (schemaOf sqliteTables name).columns := by
    decide +kernel
  exact hall name hname

end Schemas

/-! ### Rows -/

section Rows

variable {eng : Engines} {t : TableSchema} {row row' s : Row}

theorem storeRow_eq_some_iff : storeRow eng t row = some s ↔
    (∀ c ∈ t.required, row c ≠ .null) ∧
    (∀ c ∈ t.columns, eng.stores t.name c (row c) = some (s c)) ∧
      ∀ c ∉ t.columns, s c = .null := by
  rw [storeRow]
  split_ifs with htakes
  · rw [Option.some.injEq, and_iff_right htakes.1]
    constructor
    · rintro rfl
      refine ⟨fun c hc => ?_, fun c hc => if_neg hc⟩
      obtain ⟨v, hv⟩ := Option.isSome_iff_exists.1 (htakes.2 c hc)
      simp only [if_pos hc, hv, Option.getD_some]
    · rintro ⟨hcolumns, hothers⟩
      funext c
      split_ifs with hc
      · rw [hcolumns c hc, Option.getD_some]
      · exact (hothers c hc).symm
  · refine iff_of_false not_false fun h => htakes ⟨h.1, fun c hc => ?_⟩
    rw [h.2.1 c hc]
    rfl

theorem storeRow_congr (hrequired : ∀ c ∈ t.required, c ∈ t.columns)
    (h : ∀ c ∈ t.columns, row c = row' c) : storeRow eng t row = storeRow eng t row' := by
  refine Option.ext fun s => ?_
  rw [storeRow_eq_some_iff, storeRow_eq_some_iff]
  refine and_congr (forall₂_congr fun c hc => ?_) (and_congr_left' (forall₂_congr fun c hc => ?_))
  · rw [h c (hrequired c hc)]
  · rw [h c hc]

theorem clash_symm {same : SqlValue → SqlValue → Bool} {keys : List (List String)}
    (hsymm : ∀ v w, same v w = same w v) (a b : Row) :
    clash same keys a b = clash same keys b a := by
  simp only [clash, hsymm]

/-- What is stored is stored again when it comes back. -/
theorem storeRow_returnRow (heng : eng.Documented) (hrequired : ∀ c ∈ t.required, c ∈ t.columns)
    (hs : storeRow eng t row = some s) : storeRow eng t (returnRow eng t s) = some s := by
  rw [storeRow_eq_some_iff] at hs ⊢
  have hreturn : ∀ c ∈ t.columns, returnRow eng t s c = eng.returns t.name c (s c) :=
    fun c hc => if_pos hc
  refine ⟨fun c hc => ?_, fun c hc => ?_, hs.2.2⟩
  · rw [hreturn c (hrequired c hc)]
    intro hnull
    have hkept := hs.2.1 c (hrequired c hc)
    rw [heng.returns_null _ _ _ hnull] at hkept
    exact hs.1 c hc (heng.stores_null _ _ _ hkept)
  · rw [hreturn c hc]
    exact heng.again _ _ _ _ (hs.2.1 c hc)

end Rows

/-! ### To MariaDB -/

section ToMariadb

variable {eng : Engines} {t : TableSchema} {db db' b : Database} {rows : List Row}
  {source : SourceTable} {sqlite : SqliteDb} {row s : Row} {name : String} {names : List String}

/-- The rows of a table when others have been written to it. -/
def loaded (eng : Engines) (t : TableSchema) (rows base : List Row) : List Row :=
  (rows.map (stored eng t)).foldl (replaceRow (clash eng.same t.keys)) base

/-- MariaDB takes a row: its columns keep it, and what it refers to is there. -/
def Taken (eng : Engines) (db : Database) (t : TableSchema) (row : Row) : Prop :=
  storeRow eng t row = some (stored eng t row) ∧ refers eng db t (stored eng t row) = true

theorem stored_of_storeRow (h : storeRow eng t row = some s) : stored eng t row = s := by
  rw [stored, h, Option.getD_some]

/-- Only the tables that are referred to decide whether the references are there. -/
theorem refers_congr (h : ∀ ref ∈ t.references, db ref.2.1 = db' ref.2.1) :
    refers eng db t s = refers eng db' t s := by
  have hsame : ∀ ref ∈ t.references,
      (s ref.1 = .null || (db ref.2.1).any fun parent => eng.same (parent ref.2.2) (s ref.1)) =
        (s ref.1 = .null ||
          (db' ref.2.1).any fun parent => eng.same (parent ref.2.2) (s ref.1)) := by
    intro ref href
    rw [h ref href]
  rw [refers, refers, Bool.eq_iff_iff, List.all_eq_true, List.all_eq_true]
  exact forall₂_congr fun ref href => by rw [hsame ref href]

theorem replaceInto_eq_some_iff : replaceInto eng t db row = some db' ↔ Taken eng db t row ∧
    db' = Function.update db t.name
      (replaceRow (clash eng.same t.keys) (db t.name) (stored eng t row)) := by
  rw [replaceInto, Option.bind_eq_some_iff]
  constructor
  · rintro ⟨s, hs, hdb⟩
    split_ifs at hdb with hrefers
    rw [Taken, stored_of_storeRow hs]
    exact ⟨⟨hs, hrefers⟩, (Option.some.inj hdb).symm⟩
  · rintro ⟨⟨hs, hrefers⟩, rfl⟩
    exact ⟨_, hs, if_pos hrefers⟩

/-- A table is written if all of its rows are taken. -/
theorem foldlM_replaceInto (hself : ∀ ref ∈ t.references, ref.2.1 ≠ t.name) :
    rows.foldlM (replaceInto eng t) db = some db' ↔ (∀ row ∈ rows, Taken eng db t row) ∧
      db' = Function.update db t.name (loaded eng t rows (db t.name)) := by
  induction rows generalizing db with
  | nil =>
      rw [List.foldlM_nil, Option.pure_def, Option.some.injEq, loaded, List.map_nil, List.foldl_nil,
        Function.update_eq_self]
      exact ⟨fun h => ⟨fun _ hrow => absurd hrow List.not_mem_nil, h.symm⟩, fun h => h.2.symm⟩
  | cons row rows ih =>
      have htaken : ∀ new table, Taken eng (Function.update db t.name table) t new ↔
          Taken eng db t new := by
        intro new table
        refine and_congr_right fun _ => ?_
        rw [refers_congr fun ref href => Function.update_of_ne (hself ref href) _ _]
      rw [List.foldlM_cons, Option.bind_eq_bind, Option.bind_eq_some_iff, List.forall_mem_cons]
      constructor
      · rintro ⟨db₁, hfirst, hothers⟩
        obtain ⟨hrow, rfl⟩ := replaceInto_eq_some_iff.1 hfirst
        obtain ⟨hrows, rfl⟩ := ih.1 hothers
        refine ⟨⟨hrow, fun new hnew => (htaken new _).1 (hrows new hnew)⟩, ?_⟩
        rw [Function.update_idem, Function.update_self]
        rfl
      · rintro ⟨⟨hrow, hrows⟩, rfl⟩
        refine ⟨_, replaceInto_eq_some_iff.2 ⟨hrow, rfl⟩, ih.2 ⟨?_, ?_⟩⟩
        · exact fun new hnew => (htaken new _).2 (hrows new hnew)
        · rw [Function.update_idem, Function.update_self]
          rfl

/-- No column is dropped, and no default takes the place of a value. -/
theorem writeMariadbTable_eq (hrequired : ∀ c ∈ t.required, c ∈ t.columns)
    (hcolumns : ∀ c ∈ t.columns, c ∈ source.columns) :
    writeMariadbTable eng source t db = source.rows.foldlM (replaceInto eng t) db := by
  have hrow : ∀ db row, replaceInto eng t db (fun c =>
      if c ∈ source.columns.filter (· ∈ t.columns) then row c else eng.mariadbDefault t.name c) =
        replaceInto eng t db row := by
    intro db row
    rw [replaceInto, replaceInto, storeRow_congr hrequired fun c hc => if_pos ?_]
    exact List.mem_filter.2 ⟨hcolumns c hc, decide_eq_true hc⟩
  simp only [writeMariadbTable, hrow]

/-- The tables are written in an order in which those that are referred to come first. -/
structure Ordered (names : List String) : Prop where
  nodup : names.Nodup
  self : ∀ name ∈ names, ∀ ref ∈ (schemaOf mariadbTables name).references, ref.2.1 ≠ name
  later : names.Pairwise fun name other =>
    ∀ ref ∈ (schemaOf mariadbTables name).references, ref.2.1 ≠ other

/-- A database when some of its tables have been written. -/
def after (eng : Engines) (source : String → List Row) (names : List String) (b : Database) :
    Database := fun name =>
  if name ∈ names then loaded eng (schemaOf mariadbTables name) (source name) (b name) else b name

/-- What is left when some tables have been written. -/
theorem foldlM_writeMariadbTable (hordered : Ordered names) (hnames : names ⊆ toMariadbTables) :
    names.foldlM (fun db name =>
        writeMariadbTable eng (sqlite.tables name) (schemaOf mariadbTables name) db) b = some db' ↔
      db' = after eng sqlite.rows names b ∧ ∀ name ∈ names, ∀ row ∈ sqlite.rows name,
        Taken eng (after eng sqlite.rows names b) (schemaOf mariadbTables name) row := by
  induction names generalizing b with
  | nil =>
      rw [List.foldlM_nil, Option.pure_def, Option.some.injEq]
      have hafter : after eng sqlite.rows [] b = b := funext fun name => if_neg List.not_mem_nil
      rw [hafter]
      exact ⟨fun h => ⟨h.symm, fun _ hname => absurd hname List.not_mem_nil⟩, fun h => h.1.symm⟩
  | cons name names ih =>
      obtain ⟨hnot, hnodup⟩ := List.nodup_cons.1 hordered.nodup
      obtain ⟨hlater, hrest⟩ := List.pairwise_cons.1 hordered.later
      have hself := hordered.self name (List.mem_cons_self ..)
      obtain ⟨hmem, hsub⟩ := List.cons_subset.1 hnames
      have hname : (schemaOf mariadbTables name).name = name := (copied_columns hmem).2.2.1
      have hcolumns : ∀ c ∈ (schemaOf mariadbTables name).columns,
          c ∈ (sqlite.tables name).columns := by
        obtain ⟨hin, hsame, -, heq, -⟩ := copied_columns hmem
        have hall := sqlite.columns _ hin
        rwa [hsame, ← heq] at hall
      have hafter : after eng sqlite.rows names (Function.update b name
          (loaded eng (schemaOf mariadbTables name) (sqlite.rows name) (b name))) =
            after eng sqlite.rows (name :: names) b := by
        funext other
        by_cases hother : other = name
        · subst hother
          simp [after, hnot]
        · simp [after, hother]
      -- the tables that this one refers to have been written before
      have htaken : ∀ row, Taken eng b (schemaOf mariadbTables name) row ↔
          Taken eng (after eng sqlite.rows (name :: names) b)
            (schemaOf mariadbTables name) row := by
        intro row
        refine and_congr_right fun _ => ?_
        rw [refers_congr fun ref href => ?_]
        refine (if_neg fun hmem => ?_).symm
        rcases List.mem_cons.1 hmem with heq | hmem
        · exact hself ref href heq
        · exact hlater _ hmem ref href rfl
      have hwrite : ∀ db₁, writeMariadbTable eng (sqlite.tables name)
          (schemaOf mariadbTables name) b = some db₁ ↔ (∀ row ∈ sqlite.rows name,
            Taken eng (after eng sqlite.rows (name :: names) b) (schemaOf mariadbTables name) row) ∧
              db₁ = Function.update b name
                (loaded eng (schemaOf mariadbTables name) (sqlite.rows name) (b name)) := by
        intro db₁
        rw [writeMariadbTable_eq (required_subset hmem).1 hcolumns,
          foldlM_replaceInto (hname.symm ▸ hself), hname]
        exact and_congr_left' (forall₂_congr fun row _ => htaken row)
      have hrest' := ih ⟨hnodup, fun name hmem => hordered.self name (List.mem_cons_of_mem _ hmem),
        hrest⟩ hsub
        (b := Function.update b name
          (loaded eng (schemaOf mariadbTables name) (sqlite.rows name) (b name)))
      rw [hafter] at hrest'
      rw [List.foldlM_cons, Option.bind_eq_bind, Option.bind_eq_some_iff, List.forall_mem_cons]
      constructor
      · rintro ⟨db₁, hfirst, hothers⟩
        obtain ⟨hrow, rfl⟩ := (hwrite db₁).1 hfirst
        obtain ⟨hdb, hrows⟩ := hrest'.1 hothers
        exact ⟨hdb, hrow, hrows⟩
      · rintro ⟨hdb, hrow, hrows⟩
        exact ⟨_, (hwrite _).2 ⟨hrow, rfl⟩, hrest'.2 ⟨hdb, hrows⟩⟩

theorem ordered_toMariadbTables : Ordered toMariadbTables where
  nodup := by decide +kernel
  self := by decide +kernel
  later := by decide +kernel

/-- What the schema of MariaDB starts with: settings that it has taken, and nothing else. -/
structure Initial (eng : Engines) (b : Database) : Prop where
  empty : ∀ name, name ≠ "settings" → b name = []
  taken : ∀ row ∈ b "settings", ∃ given,
    storeRow eng (schemaOf mariadbTables "settings") given = some row
  apart : Apart (clash eng.same [["key"]]) (b "settings")

theorem initial_of_initDbMariadb (h : initDbMariadb eng = some b) : Initial eng b := by
  have hstart : Initial eng fun _ => [] :=
    ⟨fun _ _ => rfl, fun _ hrow => absurd hrow List.not_mem_nil, List.Pairwise.nil⟩
  refine Transactions.foldlM_keeps (fun setting _ db db' hdb hstep => ?_) hstart h
  split_ifs at hstep with hthere
  · exact Option.some.inj hstep ▸ hdb
  · obtain ⟨row, hrow, hinsert⟩ := Option.bind_eq_some_iff.1 hstep
    split_ifs at hinsert with hclash
    obtain rfl := Option.some.inj hinsert
    refine ⟨fun name hname => ?_, fun new hnew => ?_, ?_⟩
    · rw [Function.update_of_ne hname, hdb.empty name hname]
    · rw [Function.update_self] at hnew
      rcases List.mem_append.1 hnew with hold | hadded
      · exact hdb.taken new hold
      · exact ⟨_, List.mem_singleton.1 hadded ▸ hrow⟩
    · rw [Function.update_self]
      refine List.pairwise_append.2 ⟨hdb.apart, List.pairwise_singleton _ _, ?_⟩
      intro old hold new hnew
      rw [List.mem_singleton.1 hnew]
      exact Bool.eq_false_iff.2 (List.any_eq_false.1 (Bool.eq_false_iff.2 hclash) old hold)

/-- The rows of a table that has been written have been taken, and are apart. -/
theorem Initial.loaded (hb : Initial eng b) (hstored : ∀ row ∈ rows,
    storeRow eng (schemaOf mariadbTables name) row =
      some (stored eng (schemaOf mariadbTables name) row)) :
    Apart (clash eng.same (schemaOf mariadbTables name).keys)
        (loaded eng (schemaOf mariadbTables name) rows (b name)) ∧
      ∀ row ∈ EngineChange.loaded eng (schemaOf mariadbTables name) rows (b name), ∃ given,
        storeRow eng (schemaOf mariadbTables name) given = some row := by
  have hkeys : (schemaOf mariadbTables "settings").keys = [["key"]] := by decide +kernel
  constructor
  · refine Apart.foldl_replaceRow ?_
    by_cases hname : name = "settings"
    · rw [hname, hkeys]
      exact hb.apart
    · rw [hb.empty name hname]
      exact List.Pairwise.nil
  · intro row hrow
    rcases mem_foldl_replaceRow hrow with hbase | hloaded
    · by_cases hname : name = "settings"
      · subst hname
        exact hb.taken row hbase
      · rw [hb.empty name hname] at hbase
        exact absurd hbase List.not_mem_nil
    · obtain ⟨given, hgiven, rfl⟩ := List.mem_map.1 hloaded
      exact ⟨given, hstored given hgiven⟩

/-- **What the first tool leaves** of a database at the current schema. -/
theorem migrateToMariadb_eq_some_iff :
    migrateToMariadb eng (fun name => some (sqlite.tables name)) = some db' ↔
      ∃ b, initDbMariadb eng = some b ∧ db' = after eng sqlite.rows toMariadbTables b ∧
        ∀ name ∈ toMariadbTables, ∀ row ∈ sqlite.rows name,
          Taken eng (after eng sqlite.rows toMariadbTables b)
            (schemaOf mariadbTables name) row := by
  rw [migrateToMariadb, Option.bind_eq_some_iff]
  refine exists_congr fun b => and_congr_right fun _ => ?_
  exact foldlM_writeMariadbTable ordered_toMariadbTables (List.Subset.refl _)

end ToMariadb

/-! ### To SQLite -/

section ToSqlite

variable {eng : Engines} {t : TableSchema} {db out : Database} {rows base : List Row}
  {name : String}

/-- SQLite has every value that it asks for. -/
def Complete (t : TableSchema) (row : Row) : Prop := ∀ c ∈ t.required, row c ≠ .null

instance (t : TableSchema) : DecidablePred (Complete t) := fun row =>
  inferInstanceAs (Decidable (∀ c ∈ t.required, row c ≠ .null))

/-- The rows of a table of MariaDB as SQLite takes them. -/
def comesBack (eng : Engines) (name : String) (rows : List Row) : List Row :=
  (rows.map (returnRow eng (schemaOf mariadbTables name))).filter
    (Complete (schemaOf sqliteTables name) ·)

theorem foldl_insertOrIgnore : rows.foldl (insertOrIgnore t) base =
    (rows.filter (Complete t ·)).foldl (ignoreRow (clash sqliteSame t.keys)) base := by
  rw [List.foldl_filter]
  congr 1
  funext base row
  exact if_congr decide_eq_true_iff.symm rfl rfl

/-- A unique key is made of columns. -/
theorem keys_subset (hname : name ∈ toMariadbTables) :
    ∀ key ∈ (schemaOf mariadbTables name).keys, ∀ c ∈ key,
      c ∈ (schemaOf mariadbTables name).columns := by
  have hall : ∀ name ∈ toMariadbTables, ∀ key ∈ (schemaOf mariadbTables name).keys, ∀ c ∈ key,
      c ∈ (schemaOf mariadbTables name).columns := by
    decide +kernel
  exact hall name hname

/-- Rows that are apart in MariaDB are apart when they come back. -/
theorem clash_returnRow (heng : eng.Documented) (hname : name ∈ toMariadbTables) {a b : Row}
    (h : clash eng.same (schemaOf mariadbTables name).keys a b = false) :
    clash sqliteSame (schemaOf sqliteTables name).keys
      (returnRow eng (schemaOf mariadbTables name) a)
      (returnRow eng (schemaOf mariadbTables name) b) = false := by
  rw [Bool.eq_false_iff] at h ⊢
  refine fun hclash => h ?_
  rw [← (copied_columns hname).2.2.2.2] at hclash
  obtain ⟨key, hkey, hall⟩ := List.any_eq_true.1 hclash
  refine List.any_eq_true.2 ⟨key, hkey, List.all_eq_true.2 fun c hc => ?_⟩
  have hcolumn := keys_subset hname key hkey c hc
  have hsame := List.all_eq_true.1 hall c hc
  rw [sqliteSame, returnRow, returnRow, if_pos hcolumn, if_pos hcolumn, Bool.and_eq_true,
    decide_eq_true_eq, decide_eq_true_eq] at hsame
  exact heng.same_of_returns _ _ _ _ hsame.2 hsame.1

theorem writeSqliteTable_eq (heng : eng.Documented) (hname : name ∈ toMariadbTables)
    (h : Apart (clash eng.same (schemaOf mariadbTables name).keys) rows) :
    writeSqliteTable eng name rows = some (comesBack eng name rows) := by
  have hcolumns : ∀ c ∈ (schemaOf mariadbTables name).columns,
      c ∈ (schemaOf sqliteTables name).columns := by
    rw [(copied_columns hname).2.2.2.1]
    exact fun _ => id
  have hapart : Apart (clash sqliteSame (schemaOf sqliteTables name).keys)
      ([] ++ comesBack eng name rows) := by
    rw [List.nil_append]
    refine List.Pairwise.filter _ (List.pairwise_map.2 (h.imp fun hab => ?_))
    exact clash_returnRow heng hname hab
  rw [writeSqliteTable]
  split_ifs with hempty
  · rw [hempty]
    rfl
  · rw [foldl_insertOrIgnore]
    exact congrArg some (foldl_ignoreRow hapart)

/-- Both tools go by the same tables. -/
theorem toSqliteTables_eq : toSqliteTables = toMariadbTables := rfl

/-- **What the second tool leaves** of tables whose rows are apart. -/
theorem migrateToSqlite_eq (heng : eng.Documented) (h : ∀ name ∈ toMariadbTables,
    Apart (clash eng.same (schemaOf mariadbTables name).keys) (db name)) :
    migrateToSqlite eng db = some fun name =>
      if name ∈ toMariadbTables then comesBack eng name (eng.listed name (db name)) else [] := by
  have hwrite : ∀ name ∈ toMariadbTables, writeSqliteTable eng name (eng.listed name (db name)) =
      some (comesBack eng name (eng.listed name (db name))) := by
    intro name hname
    refine writeSqliteTable_eq heng hname ?_
    exact Apart.perm (clash_symm heng.symm) (h name hname) (heng.listed name (db name)).symm
  rw [migrateToSqlite, foldlM_update, toSqliteTables_eq]
  refine ⟨fun name hname => ?_, funext fun name => ?_⟩
  · rw [hwrite name hname]
    rfl
  · split_ifs with hname
    · rw [hwrite name hname]
      rfl
    · rfl

end ToSqlite

/-! ### There and back -/

section RoundTrip

variable {eng : Engines} {db : SqliteDb} {name : String} {b out : Database} {row : Row}
  {rows : List Row}

/-- The rows of a table of MariaDB. -/
def written (eng : Engines) (db : SqliteDb) (b : Database) : Database :=
  after eng db.rows toMariadbTables b

theorem written_of_mem (hname : name ∈ toMariadbTables) : written eng db b name =
    loaded eng (schemaOf mariadbTables name) (db.rows name) (b name) := if_pos hname

/-- What there is when everything has come back. -/
theorem roundTrip_eq_some_iff (heng : eng.Documented) :
    roundTrip eng (fun name => some (db.tables name)) = some out ↔
      ∃ b, initDbMariadb eng = some b ∧
        (∀ name ∈ toMariadbTables, ∀ row ∈ db.rows name,
          Taken eng (written eng db b) (schemaOf mariadbTables name) row) ∧
        out = fun name => if name ∈ toMariadbTables then
          comesBack eng name (eng.listed name (written eng db b name)) else [] := by
  rw [roundTrip, Option.bind_eq_some_iff]
  simp only [migrateToMariadb_eq_some_iff]
  constructor
  · rintro ⟨db', ⟨b, hb, rfl, htaken⟩, hback⟩
    rw [migrateToSqlite_eq heng fun name hname => ?_] at hback
    · exact ⟨b, hb, htaken, (Option.some.inj hback).symm⟩
    · rw [after, if_pos hname]
      exact ((initial_of_initDbMariadb hb).loaded fun row hrow => (htaken name hname row hrow).1).1
  · rintro ⟨b, hb, htaken, rfl⟩
    refine ⟨_, ⟨b, hb, rfl, htaken⟩, ?_⟩
    rw [migrateToSqlite_eq heng fun name hname => ?_]
    · rfl
    · rw [after, if_pos hname]
      exact ((initial_of_initDbMariadb hb).loaded fun row hrow => (htaken name hname row hrow).1).1

/-- What MariaDB keeps of a row depends on the columns of the schema. -/
theorem stored_current (hname : name ∈ toMariadbTables) :
    stored eng (schemaOf mariadbTables name) (current (schemaOf sqliteTables name) row) =
      stored eng (schemaOf mariadbTables name) row := by
  have hagree : ∀ c ∈ (schemaOf mariadbTables name).columns,
      current (schemaOf sqliteTables name) row c = row c :=
    fun c hc => if_pos ((copied_columns hname).2.2.2.1 ▸ hc)
  rw [stored, stored, storeRow_congr (required_subset hname).1 hagree]

/-- What comes back of a column. -/
theorem current_returnRow (hname : name ∈ toMariadbTables) {c : String}
    (hc : c ∈ (schemaOf mariadbTables name).columns) :
    current (schemaOf sqliteTables name) (returnRow eng (schemaOf mariadbTables name) row) c =
      eng.returns name c (row c) := by
  obtain ⟨-, -, hsame, hcolumns, -⟩ := copied_columns hname
  rw [current, if_pos (hcolumns ▸ hc), returnRow, if_pos hc, hsame]

/-- What is stored again is what was stored. -/
theorem stored_current_returnRow (heng : eng.Documented) (hname : name ∈ toMariadbTables)
    (h : ∃ given, storeRow eng (schemaOf mariadbTables name) given = some row) :
    stored eng (schemaOf mariadbTables name) (current (schemaOf sqliteTables name)
      (returnRow eng (schemaOf mariadbTables name) row)) = row := by
  obtain ⟨given, hgiven⟩ := h
  rw [stored_current hname]
  exact stored_of_storeRow (storeRow_returnRow heng (required_subset hname).1 hgiven)

/-- The rows of a table come back, perhaps among others. -/
def ComesBack (eng : Engines) (db : SqliteDb) (b : Database) (name : String) : Prop :=
  ((db.rows name).map (current (schemaOf sqliteTables name))).Subperm
    ((comesBack eng name (eng.listed name (written eng db b name))).map
      (current (schemaOf sqliteTables name)))

/-- Every value comes back as it was. -/
def Survives (eng : Engines) (db : SqliteDb) (name : String) : Prop :=
  ∀ row ∈ db.rows name, ∀ c ∈ (schemaOf mariadbTables name).columns,
    eng.returns name c (stored eng (schemaOf mariadbTables name) row c) = row c

/-- No two rows clash in MariaDB. -/
def StoredApart (eng : Engines) (db : SqliteDb) (name : String) : Prop :=
  Apart (clash eng.same (schemaOf mariadbTables name).keys)
    ((db.rows name).map (stored eng (schemaOf mariadbTables name)))

/-- What has been written of rows that come back. -/
theorem ComesBack.written (heng : eng.Documented) (hname : name ∈ toMariadbTables)
    (hgiven : ∀ row ∈ written eng db b name, ∃ given,
      storeRow eng (schemaOf mariadbTables name) given = some row)
    (h : ComesBack eng db b name) :
    ((db.rows name).map (stored eng (schemaOf mariadbTables name))).Subperm
      (EngineChange.written eng db b name) := by
  have hlisted := heng.listed name (EngineChange.written eng db b name)
  have hmap := subperm_map (stored eng (schemaOf mariadbTables name)) h
  have hrows : ((db.rows name).map (current (schemaOf sqliteTables name))).map
      (stored eng (schemaOf mariadbTables name)) =
        (db.rows name).map (stored eng (schemaOf mariadbTables name)) := by
    rw [List.map_map]
    exact List.map_congr_left fun row _ => stored_current hname
  have hback : (((eng.listed name (EngineChange.written eng db b name)).map
      (returnRow eng (schemaOf mariadbTables name))).map
        (current (schemaOf sqliteTables name))).map (stored eng (schemaOf mariadbTables name)) =
          eng.listed name (EngineChange.written eng db b name) := by
    rw [List.map_map, List.map_map]
    refine (List.map_congr_left fun row hrow => ?_).trans (List.map_id _)
    exact stored_current_returnRow heng hname (hgiven row (hlisted.mem_iff.1 hrow))
  have hkept := ((List.filter_sublist (p := (Complete (schemaOf sqliteTables name) ·))
    (l := (eng.listed name (EngineChange.written eng db b name)).map
      (returnRow eng (schemaOf mariadbTables name)))).map
        (current (schemaOf sqliteTables name))).map (stored eng (schemaOf mariadbTables name))
  rw [hback] at hkept
  rw [hrows] at hmap
  exact (hmap.trans hkept.subperm).trans hlisted.subperm

theorem ComesBack.survives (heng : eng.Documented) (hname : name ∈ toMariadbTables)
    (hgiven : ∀ row ∈ EngineChange.written eng db b name, ∃ given,
      storeRow eng (schemaOf mariadbTables name) given = some row)
    (h : ComesBack eng db b name) : Survives eng db name := by
  intro row hrow c hc
  have hcolumn := (copied_columns hname).2.2.2.1 ▸ hc
  obtain ⟨back, hback, hcurrent⟩ := List.mem_map.1
    (h.subset (List.mem_map_of_mem (f := current (schemaOf sqliteTables name)) hrow))
  obtain ⟨kept, hkept, rfl⟩ := List.mem_map.1 (List.mem_filter.1 hback).1
  have hin := (heng.listed name _).mem_iff.1 hkept
  have hstored : stored eng (schemaOf mariadbTables name) row = kept := by
    rw [← stored_current hname, ← hcurrent]
    exact stored_current_returnRow heng hname (hgiven kept hin)
  rw [hstored, ← current_returnRow hname hc, hcurrent, current, if_pos hcolumn]

theorem comesBack_of_survives (heng : eng.Documented) (hname : name ∈ toMariadbTables)
    (hsurvives : Survives eng db name) (hapart : StoredApart eng db name) :
    ComesBack eng db b name := by
  obtain ⟨hin, hsame, -, hcolumns, -⟩ := copied_columns hname
  have hreturn : ∀ row ∈ db.rows name, ∀ c ∈ (schemaOf mariadbTables name).columns,
      returnRow eng (schemaOf mariadbTables name)
        (stored eng (schemaOf mariadbTables name) row) c = row c := by
    intro row hrow c hc
    rw [returnRow, if_pos hc, (copied_columns hname).2.2.1]
    exact hsurvives row hrow c hc
  -- what comes back is complete, since the rows were
  have hcomplete : ∀ row ∈ ((db.rows name).map (stored eng (schemaOf mariadbTables name))).map
      (returnRow eng (schemaOf mariadbTables name)),
        Complete (schemaOf sqliteTables name) row := by
    intro back hback c hc
    obtain ⟨kept, hkept, rfl⟩ := List.mem_map.1 hback
    obtain ⟨row, hrow, rfl⟩ := List.mem_map.1 hkept
    rw [hreturn row hrow c (hcolumns ▸ (required_subset hname).2 c hc)]
    have hrequired := db.required _ hin
    rw [hsame] at hrequired
    exact hrequired row hrow c hc
  have hrows : (((db.rows name).map (stored eng (schemaOf mariadbTables name))).map
      (returnRow eng (schemaOf mariadbTables name))).map (current (schemaOf sqliteTables name)) =
        (db.rows name).map (current (schemaOf sqliteTables name)) := by
    rw [List.map_map, List.map_map]
    refine List.map_congr_left fun row hrow => funext fun c => ?_
    rw [Function.comp_apply, Function.comp_apply, current, current]
    split_ifs with hc
    · exact hreturn row hrow c (hcolumns ▸ hc)
    · rfl
  have hkept := (List.filter_eq_self.2 fun row hrow => decide_eq_true (hcomplete row hrow)).symm
  have hwritten : ((db.rows name).map (stored eng (schemaOf mariadbTables name))).Subperm
      (eng.listed name (written eng db b name)) := by
    rw [written_of_mem hname, loaded, foldl_replaceRow hapart]
    exact (List.sublist_append_right _ _).subperm.trans (heng.listed name _).symm.subperm
  rw [ComesBack, ← hrows, hkept]
  exact subperm_map _ ((subperm_map _ hwritten).filter _)

/-- A table is referred to that is copied, and that is empty at first. -/
theorem references_copied (hname : name ∈ toMariadbTables) :
    ∀ ref ∈ (schemaOf mariadbTables name).references,
      ref.2.1 ∈ toMariadbTables ∧ ref.2.1 ≠ "settings" := by
  have hall : ∀ name ∈ toMariadbTables, ∀ ref ∈ (schemaOf mariadbTables name).references,
      ref.2.1 ∈ toMariadbTables ∧ ref.2.1 ≠ "settings" := by
    decide +kernel
  exact hall name hname

/-- What a row refers to is among the rows of the database. -/
theorem mem_of_refers (hname : name ∈ toMariadbTables) (hb : Initial eng b)
    (h : refers eng (written eng db b) (schemaOf mariadbTables name) row = true) :
    ∀ ref ∈ (schemaOf mariadbTables name).references,
      row ref.1 = .null ∨ ∃ parent ∈ db.rows ref.2.1,
        eng.same (stored eng (schemaOf mariadbTables ref.2.1) parent ref.2.2) (row ref.1) =
          true := by
  intro ref href
  obtain ⟨hmem, hne⟩ := references_copied hname ref href
  rcases Bool.or_eq_true_iff.1 (List.all_eq_true.1 h ref href) with hnull | hparent
  · exact .inl (of_decide_eq_true hnull)
  · obtain ⟨kept, hkept, hsame⟩ := List.any_eq_true.1 hparent
    rw [written_of_mem hmem, hb.empty _ hne] at hkept
    rcases mem_foldl_replaceRow hkept with hnone | hkept
    · exact absurd hnone List.not_mem_nil
    · obtain ⟨parent, hin, rfl⟩ := List.mem_map.1 hkept
      exact .inr ⟨parent, hin, hsame⟩

/-- Rows that are apart are all there to be referred to. -/
theorem refers_of_mem (hname : name ∈ toMariadbTables)
    (hapart : ∀ name ∈ toMariadbTables, StoredApart eng db name)
    (h : ∀ ref ∈ (schemaOf mariadbTables name).references,
      row ref.1 = .null ∨ ∃ parent ∈ db.rows ref.2.1,
        eng.same (stored eng (schemaOf mariadbTables ref.2.1) parent ref.2.2) (row ref.1) = true) :
    refers eng (written eng db b) (schemaOf mariadbTables name) row = true := by
  refine List.all_eq_true.2 fun ref href => ?_
  have hmem := (references_copied hname ref href).1
  rcases h ref href with hnull | ⟨parent, hin, hsame⟩
  · rw [hnull]
    rfl
  · refine Bool.or_eq_true_iff.2 (.inr (List.any_eq_true.2 ⟨_, ?_, hsame⟩))
    rw [written_of_mem hmem, loaded, foldl_replaceRow (hapart _ hmem)]
    exact List.mem_append_right _ (List.mem_map_of_mem hin)

/-- Every row comes back if all of them are taken, and those of every table come back. -/
theorem reproduces_iff_comesBack (heng : eng.Documented) : Reproduces eng db ↔
    ∃ b, initDbMariadb eng = some b ∧
      (∀ name ∈ toMariadbTables, ∀ row ∈ db.rows name,
        Taken eng (written eng db b) (schemaOf mariadbTables name) row) ∧
      db.rows "plex_overlays" = [] ∧ ∀ name ∈ toMariadbTables, ComesBack eng db b name := by
  have hnot : "plex_overlays" ∉ toMariadbTables := by decide +kernel
  rw [Reproduces]
  simp only [roundTrip_eq_some_iff heng]
  constructor
  · rintro ⟨out, ⟨b, hb, htaken, rfl⟩, hrows⟩
    refine ⟨b, hb, htaken, ?_, fun name hname => ?_⟩
    · have hin : schemaOf sqliteTables "plex_overlays" ∈ sqliteTables := by decide +kernel
      have hname : (schemaOf sqliteTables "plex_overlays").name = "plex_overlays" := by
        decide +kernel
      have hlost := hrows _ hin
      simp only [hname, if_neg hnot, List.map_nil, List.subperm_nil, List.map_eq_nil_iff] at hlost
      exact hlost
    · obtain ⟨hin, hsame, -, -, -⟩ := copied_columns hname
      have hback := hrows _ hin
      simp only [hsame, if_pos hname] at hback
      exact hback
  · rintro ⟨b, hb, htaken, hempty, hback⟩
    refine ⟨_, ⟨b, hb, htaken, rfl⟩, fun t ht => ?_⟩
    rcases mem_sqliteTables ht with hname | ⟨hname, hschema⟩
    · have hrows : (db.tables t.name).rows = [] := hname ▸ hempty
      rw [hrows, List.map_nil]
      exact List.nil_subperm
    · have hthis := hback t.name hname
      rw [ComesBack, hschema] at hthis
      simp only [if_pos hname]
      exact hthis

theorem Fits.survives_stored (hname : name ∈ toMariadbTables)
    (h : Fits eng db (schemaOf mariadbTables name)) :
    Survives eng db name ∧ ∀ row ∈ db.rows name,
      storeRow eng (schemaOf mariadbTables name) row =
        some (stored eng (schemaOf mariadbTables name) row) := by
  obtain ⟨-, -, hsame, -, -⟩ := copied_columns hname
  obtain ⟨hrequired, hsurvives, -, -⟩ := h
  rw [hsame] at hrequired hsurvives
  have hstored : ∀ row ∈ db.rows name, ∃ s,
      storeRow eng (schemaOf mariadbTables name) row = some s := by
    intro row hrow
    refine ⟨_, if_pos ⟨hrequired row hrow, fun c hc => ?_⟩⟩
    obtain ⟨v, hv, -⟩ := hsurvives row hrow c hc
    rw [hsame, hv]
    rfl
  refine ⟨fun row hrow c hc => ?_, fun row hrow => ?_⟩
  · obtain ⟨s, hs⟩ := hstored row hrow
    obtain ⟨v, hv, hreturns⟩ := hsurvives row hrow c hc
    have hkept := (storeRow_eq_some_iff.1 hs).2.1 c hc
    rw [hsame, hv] at hkept
    rw [stored_of_storeRow hs, ← Option.some.inj hkept, hreturns]
  · obtain ⟨s, hs⟩ := hstored row hrow
    rw [stored_of_storeRow hs, hs]

/-- **Exactly when every row comes back**: no artwork has been applied to a server, and the rows of
the other tables survive the columns of MariaDB, do not clash there, and refer to rows that are
there. -/
theorem reproduces_iff (heng : eng.Documented) (db : SqliteDb) : Reproduces eng db ↔
    db.rows "plex_overlays" = [] ∧
      ∀ name ∈ toMariadbTables, Fits eng db (schemaOf mariadbTables name) := by
  rw [reproduces_iff_comesBack heng]
  constructor
  · rintro ⟨b, hb, htaken, hempty, hback⟩
    refine ⟨hempty, fun name hname => ?_⟩
    obtain ⟨-, -, hsame, -, -⟩ := copied_columns hname
    have hstored := fun row hrow => (htaken name hname row hrow).1
    obtain ⟨hapart, hgiven⟩ := (initial_of_initDbMariadb hb).loaded hstored
    rw [← @written_of_mem eng db name b hname] at hapart hgiven
    have hsurvives := (hback name hname).survives heng hname hgiven
    constructor <;> rw [hsame]
    · exact fun row hrow => (storeRow_eq_some_iff.1 (hstored row hrow)).1
    · intro row hrow c hc
      have hkept := (storeRow_eq_some_iff.1 (hstored row hrow)).2.1 c hc
      rw [hsame] at hkept
      exact ⟨_, hkept, hsurvives row hrow c hc⟩
    · exact hapart.of_subperm (clash_symm heng.symm) ((hback name hname).written heng hname hgiven)
    · exact fun row hrow =>
        mem_of_refers hname (initial_of_initDbMariadb hb) (htaken name hname row hrow).2
  · rintro ⟨hempty, hfits⟩
    obtain ⟨b, hb⟩ := Option.isSome_iff_exists.1 heng.created
    have hapart : ∀ name ∈ toMariadbTables, StoredApart eng db name := by
      intro name hname
      have happ := (hfits name hname).apart
      rwa [(copied_columns hname).2.2.1] at happ
    refine ⟨b, hb, fun name hname row hrow => ⟨?_, ?_⟩, hempty, fun name hname => ?_⟩
    · exact ((hfits name hname).survives_stored hname).2 row hrow
    · have hrefers := (hfits name hname).refers
      rw [(copied_columns hname).2.2.1] at hrefers
      exact refers_of_mem hname hapart (hrefers row hrow)
    · exact comesBack_of_survives heng hname ((hfits name hname).survives_stored hname).1
        (hapart name hname)

/-! ### The rows of one table -/

/-- The tables of a database in which one table has rows. -/
def singleTables (name : String) (rows : List Row) (other : String) : SourceTable :=
  { columns := (schemaOf sqliteTables other).columns
    rows := if other = name then rows else [] }

theorem singleTables_columns : ∀ t ∈ sqliteTables, ∀ c ∈ t.columns,
    c ∈ (singleTables name rows t.name).columns := by
  have hall : ∀ t ∈ sqliteTables, ∀ c ∈ t.columns, c ∈ (schemaOf sqliteTables t.name).columns := by
    decide +kernel
  exact hall

theorem schemaOf_name : ∀ t ∈ sqliteTables, schemaOf sqliteTables t.name = t := by decide +kernel

theorem singleTables_required (h : ∀ row ∈ rows, Complete (schemaOf sqliteTables name) row) :
    ∀ t ∈ sqliteTables, ∀ new ∈ (singleTables name rows t.name).rows, ∀ c ∈ t.required,
      new c ≠ .null := by
  intro t ht new hnew c hc
  rw [singleTables] at hnew
  split_ifs at hnew with hname
  · refine h new hnew c ?_
    rwa [← hname, schemaOf_name t ht]
  · exact absurd hnew List.not_mem_nil

theorem singleTables_apart (h : Apart (clash sqliteSame (schemaOf sqliteTables name).keys) rows) :
    ∀ t ∈ sqliteTables, Apart (clash sqliteSame t.keys) (singleTables name rows t.name).rows := by
  intro t ht
  rw [singleTables]
  split_ifs with hname
  · rwa [← hname, schemaOf_name t ht] at h
  · exact List.Pairwise.nil

/-- A database in which one table has rows. -/
def SqliteDb.single (name : String) (rows : List Row)
    (h : ∀ row ∈ rows, Complete (schemaOf sqliteTables name) row)
    (hapart : Apart (clash sqliteSame (schemaOf sqliteTables name).keys) rows) : SqliteDb :=
  ⟨singleTables name rows, singleTables_columns, singleTables_required h,
    singleTables_apart hapart⟩

/-- Engines that keep every value, and a setting of the schema. -/
def keepingEngines : Engines where
  stores _ _ v := some v
  mariadbDefault _ _ := .null
  sqliteDefault _ _ := .null
  same := sqliteSame
  returns _ _ v := v
  listed _ rows := rows
  defaults := [("dry_run", "false")]

theorem keepingEngines_documented : keepingEngines.Documented where
  stores_null _ _ _ h := Option.some.inj h
  returns_null _ _ _ h := h
  again _ _ _ _ _ := rfl
  same_of_returns _ _ v w heq hnull := by
    have heq' : v = w := heq
    have hnull' : v ≠ .null := hnull
    rw [heq'] at hnull' ⊢
    simp [keepingEngines, sqliteSame, hnull']
  symm v w := by
    by_cases h : v = w
    · rw [h]
    · simp [keepingEngines, sqliteSame, h, Ne.symm h]
  listed _ rows := List.Perm.refl rows
  created := by decide +kernel

/-- Two settings that have been changed. -/
def changedSettings : List Row :=
  [settingRow ("dry_run", "true"), settingRow ("language", "fr")]

/-- A database with these settings. -/
def settingsDb : SqliteDb :=
  .single "settings" changedSettings (by decide +kernel)
    (List.pairwise_pair.2 (by decide +kernel))

/-- Settings that have been changed come back. -/
theorem reproduces_iff_dryRun : Reproduces keepingEngines settingsDb := by
  have hrows : ∀ name, settingsDb.rows name =
      if name = "settings" then changedSettings else [] := fun _ => rfl
  have hdistinct : "plex_overlays" ≠ "settings" := by decide
  refine (reproduces_iff keepingEngines_documented _).2 ⟨?_, fun name hname => ?_⟩
  · rw [hrows, if_neg hdistinct]
  · have hschema := (copied_columns hname).2.2.1
    by_cases hsettings : name = "settings"
    · subst hsettings
      have hboth := hrows "settings"
      rw [if_pos rfl] at hboth
      have hreferences : (schemaOf mariadbTables "settings").references = [] := by decide +kernel
      have hrequired : ∀ row ∈ changedSettings,
          ∀ c ∈ (schemaOf mariadbTables "settings").required, row c ≠ .null := by
        decide +kernel
      have hapart : Apart (clash sqliteSame (schemaOf mariadbTables "settings").keys)
          (changedSettings.map (stored keepingEngines (schemaOf mariadbTables "settings"))) :=
        List.pairwise_pair.2 (by decide +kernel)
      constructor <;> rw [hschema, ← SqliteDb.rows, hboth]
      · exact hrequired
      · exact fun row _ c _ => ⟨_, rfl, rfl⟩
      · exact hapart
      · rw [hreferences]
        exact fun _ _ _ href => absurd href List.not_mem_nil
    · have hnone := hrows name
      rw [if_neg hsettings] at hnone
      constructor <;> rw [hschema, ← SqliteDb.rows, hnone]
      · exact fun _ hrow => absurd hrow List.not_mem_nil
      · exact fun _ hrow => absurd hrow List.not_mem_nil
      · exact List.Pairwise.nil
      · exact fun _ hrow => absurd hrow List.not_mem_nil

/-- What marks artwork that has been applied. -/
def overlayRow : Row := fun c =>
  if c = "id" then .integer 1
  else if c = "server_id" then .text "plex"
  else if c = "rating_key" then .text "4711"
  else if c = "applied_at" then .text "2026-01-01T00:00:00+00:00"
  else .null

/-- A database in which one artwork has been applied. -/
def overlayDb : SqliteDb :=
  .single "plex_overlays" [overlayRow] (by decide +kernel) (List.pairwise_singleton _ _)

/-- Artwork that has been applied is forgotten. -/
theorem not_reproduces_overlayRow : ¬ Reproduces keepingEngines overlayDb := by
  intro h
  obtain ⟨b, -, -, hempty, -⟩ := (reproduces_iff_comesBack keepingEngines_documented).1 h
  exact List.cons_ne_nil _ _ hempty

end RoundTrip

end Hygie.EngineChange
