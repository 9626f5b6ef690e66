/-
**Upserts on the two engines.**

The settings and the ignored titles are written with `INSERT OR REPLACE`, which SQLite carries out
by deleting the row with the same key.  MariaDB is sent an `INSERT … ON DUPLICATE KEY UPDATE` of
the columns that the statement lists after the first one.  A row that is there already so keeps
its values in the columns that the statement does not list, where SQLite gives them their defaults.

What MariaDB keeps of a value, and how it compares keys, is a parameter.

Main definitions:

* `Upsert` — the statements that the application issues, with their parameters;
* `Upsert.sqlite`, `Upsert.mariadb` — what the engines make of one;
* `TableState` — a state of the table that both engines can have;
* `SameMeaning` — the engines end with the same rows.

Main results:

* `rewritten_sql` — the text that MariaDB gets updates the columns after the first one;
* `sameMeaning_iff` — **exactly when an upsert means the same**;
* `sameMeaning_iff_allListed` — the statements that list every column.
-/

import Hygie.SqlText
import Hygie.EngineChange
import Hygie.Ignoring

set_option relaxedAutoImplicit false
set_option autoImplicit false

namespace Hygie

open EngineChange Loads PyText

/-! ### The tables -/

/-- A table with a key that the statements give, without the key that the engine numbers. -/
structure KeyedTable where
  name : String
  key : String
  /-- What an engine puts into a column that a statement does not list. -/
  initial : String → SqlValue

/-- The columns that are seen. -/
def KeyedTable.columns (t : KeyedTable) : List String :=
  (schemaOf sqliteTables t.name).columns.filter (· ≠ "id")

/-- `settings`. -/
def settingsTable : KeyedTable where
  name := "settings"
  key := "key"
  initial := fun _ => .null

/-- `ignored_media`; the two schemas declare the same defaults. -/
def ignoredTable : KeyedTable where
  name := "ignored_media"
  key := "emby_id"
  initial := fun c =>
    if c = "media_type" then .text "Movie"
    else if c ∈ ["library_id", "library_name", "file_path", "poster_url", "tmdb_id",
      "seerr_username", "seerr_request_url", "reason"] then .text ""
    else .null

/-! ### The statements -/

/-- The body of `add_ignored`. -/
structure IgnoreBody where
  embyId : String
  title : String
  mediaType : Option String := some "Movie"
  libraryId : Option String := some ""
  libraryName : Option String := some ""
  posterUrl : Option String := some ""
  reason : Option String := some ""

/-- The upserts that the application issues, with what their parameters are made of. -/
inductive Upsert
  | setSetting (key stored : String)
  | addIgnored (body : IgnoreBody) (ignoredAt : String) (expireAt : Option String)
  | upsertIgnored (row : QueueRow) (note : IgnoreNote)

/-- The parts of a statement: the name of the table, the white space after it, the text between the
parentheses, and the rest. -/
structure StatementParts where
  name : String
  space : String
  cols : String
  rest : String

/-- The text of the parts. -/
def StatementParts.text (p : StatementParts) : String :=
  p.name ++ (p.space ++ ("(" ++ (p.cols ++ (")" ++ p.rest))))

/-- A text, or `NULL`. -/
def optText (s : Option String) : SqlValue := (s.map SqlValue.text).getD .null

/-- A number, or `NULL`. -/
def optInteger (n : Option ℤ) : SqlValue := (n.map SqlValue.integer).getD .null

/-- `value or other`. -/
def textOr (s : Option String) (other : String) : SqlValue :=
  .text (orElseText (s.getD "") other)

namespace Upsert

/-- The columns that a setting is written with. -/
def settingColumns : List String := ["key", "value"]

/-- The columns that `add_ignored` lists. -/
def addColumns : List String :=
  ["emby_id", "title", "media_type", "library_id", "library_name", "poster_url", "reason",
   "ignored_at", "expire_at"]

/-- The columns of `_UPSERT_IGNORED_SQL`. -/
def upsertColumns : List String :=
  ["emby_id", "title", "media_type", "library_id", "library_name", "file_path", "poster_url",
   "tmdb_id", "seerr_id", "seerr_user_id", "seerr_username", "seerr_request_url", "radarr_id",
   "sonarr_id", "added_date", "last_played", "reason", "ignored_at", "expire_at"]

/-- The parts of the statement. -/
def parts : Upsert → StatementParts
  | setSetting _ _ =>
      { name := "settings", space := " ", cols := "`key`, value", rest := " VALUES (?, ?)" }
  | addIgnored _ _ _ =>
      { name := "ignored_media"
        space := "\n               "
        cols := "emby_id, title, media_type, " ++ "library_id, library_name, poster_url,\n" ++
          "                reason, ignored_at, expire_at"
        rest := "\n               VALUES (?, ?, ?, ?, ?, ?, ?, ?, ?)" }
  | upsertIgnored _ _ =>
      { name := "ignored_media"
        space := " "
        cols := "emby_id, title, media_type, library_id, " ++ "library_name, file_path, " ++
          "poster_url, tmdb_id, seerr_id, seerr_user_id, " ++ "seerr_username, " ++
          "seerr_request_url, radarr_id, sonarr_id, " ++ "added_date, last_played, " ++
          "reason, ignored_at, expire_at"
        rest := " VALUES (?, ?, ?, ?, ?, ?, ?, ?, ?, ?, ?, ?, ?, ?, ?, ?, ?, ?, ?)" }

/-- The text of the statement. -/
def sql (u : Upsert) : String := "INSERT OR REPLACE INTO " ++ u.parts.text

/-- The table that it writes to. -/
def table : Upsert → KeyedTable
  | setSetting _ _ => settingsTable
  | addIgnored _ _ _ => ignoredTable
  | upsertIgnored _ _ => ignoredTable

/-- The columns that it lists. -/
def columns : Upsert → List String
  | setSetting _ _ => settingColumns
  | addIgnored _ _ _ => addColumns
  | upsertIgnored _ _ => upsertColumns

/-- Its parameters. -/
def values : Upsert → List SqlValue
  | setSetting key stored => [.text key, .text stored]
  | addIgnored body ignoredAt expireAt =>
      [.text body.embyId, .text body.title, textOr body.mediaType "Movie",
       textOr body.libraryId "", textOr body.libraryName "", textOr body.posterUrl "",
       textOr body.reason "", .text ignoredAt, optText expireAt]
  | upsertIgnored row note =>
      let item := upsertIgnoredParams row note 0
      [.text item.embyId, .text item.title, .text item.mediaType, .text item.libraryId,
       .text item.libraryName, .text item.filePath, .text item.posterUrl, .text item.tmdbId,
       optInteger item.seerrId, optInteger item.seerrUserId, .text item.seerrUsername,
       .text item.seerrRequestUrl, optInteger item.radarrId, optInteger item.sonarrId,
       optText item.addedDate, optText item.lastPlayed, .text item.reason, .text item.ignoredAt,
       optText item.expireAt]

variable (u : Upsert)

/-- The row that is inserted: the parameters, and the defaults of the other columns. -/
def row : Row := fun c =>
  if c ∈ u.table.columns then
    if c ∈ u.columns then ((u.columns.zip u.values).lookup c).getD .null else u.table.initial c
  else .null

end Upsert

/-! ### The engines -/

/-- What is relied on of MariaDB. -/
structure MariaDb where
  /-- What a column of a table keeps of a value; nothing stands for a value that it refuses. -/
  stores : String → String → SqlValue → Option SqlValue
  /-- What the collation compares of a text. -/
  collate : String → String

/-- MariaDB takes the texts of two keys for equal. -/
def MariaDb.sameKey (db : MariaDb) : SqlValue → SqlValue → Bool
  | .text a, .text b => db.collate a = db.collate b
  | _, _ => false

/-- A state of a table that both engines can have. -/
structure TableState (db : MariaDb) (t : KeyedTable) where
  rows : List Row
  keyed : ∀ row ∈ rows, ∃ k, row t.key = .text k
  seen : ∀ row ∈ rows, ∀ c, c ∉ t.columns → row c = .null
  held : ∀ row ∈ rows, ∀ c ∈ t.columns, db.stores t.name c (row c) = some (row c)
  apart : Apart (fun a b => db.sameKey (a t.key) (b t.key)) rows

namespace Upsert

variable (db : MariaDb) (u : Upsert)

/-- `INSERT OR REPLACE` of SQLite. -/
def sqlite (rows : List Row) : List Row :=
  replaceRow (fun old new => old u.table.key = new u.table.key) rows u.row

/-- What MariaDB keeps of the row. -/
def storedRow : Row := fun c =>
  if c ∈ u.columns then (db.stores u.table.name c (u.row c)).getD .null else u.row c

/-- The row that is there, with the updated columns. -/
def updated (old new : Row) : Row := fun c => if c ∈ u.columns.tail then new c else old c

/-- The statement that MariaDB gets; nothing stands for an error. -/
def mariadb (rows : List Row) : Option (List Row) :=
  if ∀ c ∈ u.columns, (db.stores u.table.name c (u.row c)).isSome then
    some (upsertRow (fun old new => db.sameKey (old u.table.key) (new u.table.key)) u.updated rows
      (u.storedRow db))
  else none

end Upsert

/-- **The upsert means the same on both engines**: they end with the same rows. -/
def SameMeaning {db : MariaDb} (u : Upsert) (s : TableState db u.table) : Prop :=
  ∃ rows, u.mariadb db s.rows = some rows ∧ rows.Perm (u.sqlite s.rows)

/-! ### The text that MariaDB gets -/

/-- The parts are those of a statement that the rewriting takes apart, and list these columns. -/
structure StatementParts.Lists (p : StatementParts) (word : Char → Bool) (columns : List String) :
    Prop where
  name_ne : p.name.toList ≠ []
  name_word : p.name.toList.all (fun c => isWord word c && !isSpace c) = true
  space : p.space.toList.all (fun c => isSpace c && !isWord word c) = true
  cols : ∀ c ∈ p.cols.toList, c ≠ ')'
  values : (leading word ["VALUES"] p.rest.toList).isSome = true
  tail : (columnsOf p.cols.toList).tail = columns.tail.map (·.toList)
  two : 2 ≤ (columnsOf p.cols.toList).length

theorem StatementParts.Lists.rewritten_eq {p : StatementParts} {word : Char → Bool}
    {columns : List String} (h : p.Lists word columns) :
    rewritten word ("INSERT OR REPLACE INTO " ++ p.text).toList =
      "INSERT INTO ".toList ++ p.text.toList ++
        (" ON DUPLICATE KEY UPDATE ".toList ++ updateClause (columns.tail.map (·.toList))) := by
  have htext : p.text.toList = p.name.toList ++ (p.space.toList ++
      '(' :: (p.cols.toList ++ ')' :: p.rest.toList)) := by
    simp only [StatementParts.text, String.toList_append]
    rfl
  rw [String.toList_append, htext, ← h.tail]
  exact rewritten_insertOrReplace h.name_ne h.name_word h.space h.cols h.values h.two

theorem Upsert.lists (word : Char → Bool) (u : Upsert) : u.parts.Lists word u.columns := by
  cases u with
  | setSetting key stored =>
      simp only [Upsert.parts, Upsert.columns]
      refine ⟨List.cons_ne_nil _ _, rfl, rfl, List.all_iff_forall_prop.1 ?_, rfl, ?_, ?_⟩ <;>
        decide +kernel
  | addIgnored body ignoredAt expireAt =>
      simp only [Upsert.parts, Upsert.columns]
      refine ⟨List.cons_ne_nil _ _, rfl, rfl, List.all_iff_forall_prop.1 ?_, rfl, ?_, ?_⟩ <;>
        simp only [String.toList_append] <;> decide +kernel
  | upsertIgnored row note =>
      simp only [Upsert.parts, Upsert.columns]
      refine ⟨List.cons_ne_nil _ _, rfl, rfl, List.all_iff_forall_prop.1 ?_, rfl, ?_, ?_⟩ <;>
        simp only [String.toList_append] <;> decide +kernel

/-- **MariaDB updates the columns after the first one.** -/
theorem rewritten_sql (word : Char → Bool) (u : Upsert) :
    rewritten word u.sql.toList = "INSERT INTO ".toList ++ u.parts.text.toList ++
      (" ON DUPLICATE KEY UPDATE ".toList ++ updateClause (u.columns.tail.map (·.toList))) :=
  (u.lists word).rewritten_eq

/-! ### When an upsert means the same -/

section Meaning

variable {db : MariaDb} {u : Upsert}

/-- The first column that a statement lists is the key of its table, and no other one is. -/
theorem Upsert.columns_eq (u : Upsert) :
    u.columns = u.table.key :: u.columns.tail ∧ u.table.key ∉ u.columns.tail ∧
      ∀ c ∈ u.columns, c ∈ u.table.columns := by
  cases u with
  | setSetting key stored =>
      exact ⟨rfl, (by decide : "key" ∉ settingColumns.tail),
        (by decide : ∀ c ∈ settingColumns, c ∈ settingsTable.columns)⟩
  | addIgnored body ignoredAt expireAt =>
      exact ⟨rfl, (by decide : "emby_id" ∉ addColumns.tail),
        (by decide : ∀ c ∈ addColumns, c ∈ ignoredTable.columns)⟩
  | upsertIgnored row note =>
      exact ⟨rfl, (by decide : "emby_id" ∉ upsertColumns.tail),
        (by decide : ∀ c ∈ upsertColumns, c ∈ ignoredTable.columns)⟩

theorem sameKey_iff {v w : SqlValue} :
    db.sameKey v w = true ↔ ∃ a b, v = .text a ∧ w = .text b ∧ db.collate a = db.collate b := by
  cases v <;> cases w <;> simp [MariaDb.sameKey]

/-- At most one row of the table has the key, as MariaDB compares. -/
theorem TableState.one {t : KeyedTable} (s : TableState db t) (v : SqlValue) :
    s.rows.Pairwise fun a b =>
      ¬(db.sameKey (a t.key) v = true ∧ db.sameKey (b t.key) v = true) := by
  refine s.apart.imp fun {a b} hab => ?_
  rintro ⟨ha, hb⟩
  obtain ⟨x, y, hx, hy, hxy⟩ := sameKey_iff.1 ha
  obtain ⟨x', y', hx', hy', hxy'⟩ := sameKey_iff.1 hb
  have heq : y = y' := SqlValue.text.inj (hy.symm.trans hy')
  subst heq
  have hsame : db.sameKey (a t.key) (b t.key) = true :=
    sameKey_iff.2 ⟨x, x', hx, hx', hxy.trans hxy'.symm⟩
  exact Bool.false_ne_true (hab.symm.trans hsame)

theorem storedRow_eq_row_iff (hstores : ∀ c ∈ u.columns,
    (db.stores u.table.name c (u.row c)).isSome) :
    u.storedRow db = u.row ↔
      ∀ c ∈ u.columns, db.stores u.table.name c (u.row c) = some (u.row c) := by
  constructor
  · intro h c hc
    obtain ⟨v, hv⟩ := Option.isSome_iff_exists.1 (hstores c hc)
    have hrow := congrFun h c
    rw [Upsert.storedRow, if_pos hc, hv, Option.getD_some] at hrow
    rw [hv, hrow]
  · intro h
    funext c
    rw [Upsert.storedRow]
    split
    next hc => rw [h c hc, Option.getD_some]
    next => rfl

/-- The engines end with the same rows if MariaDB makes the given row of the one it updates, or
inserts it. -/
theorem sameMeaning_iff_updates {s : TableState db u.table} :
    SameMeaning u s ↔
      (∀ c ∈ u.columns, (db.stores u.table.name c (u.row c)).isSome) ∧
        ((∀ old ∈ s.rows, db.sameKey (old u.table.key) (u.storedRow db u.table.key) = false) →
          u.storedRow db = u.row) ∧
        ∀ old ∈ s.rows, db.sameKey (old u.table.key) (u.storedRow db u.table.key) = true →
          old u.table.key = u.row u.table.key ∧ u.updated old (u.storedRow db) = u.row := by
  obtain ⟨hcolumns, -, hlisted⟩ := u.columns_eq
  have hkeyMem : u.table.key ∈ u.columns := hcolumns ▸ List.mem_cons_self
  have hmariadb : SameMeaning u s ↔
      (∀ c ∈ u.columns, (db.stores u.table.name c (u.row c)).isSome) ∧
        (upsertRow (fun old new => db.sameKey (old u.table.key) (new u.table.key)) u.updated s.rows
          (u.storedRow db)).Perm (u.sqlite s.rows) := by
    unfold SameMeaning Upsert.mariadb
    split
    next h =>
      simp only [Option.some.injEq, exists_eq_left']
      exact ⟨fun hperm => ⟨h, hperm⟩, And.right⟩
    next h => simp [h]
  have hle : ∀ old ∈ s.rows, decide (old u.table.key = u.row u.table.key) = true →
      db.sameKey (old u.table.key) (u.storedRow db u.table.key) = true := by
    intro old hold heq
    obtain ⟨k, hk⟩ := s.keyed old hold
    have hheld := s.held old hold u.table.key (hlisted _ hkeyMem)
    rw [of_decide_eq_true heq] at hheld hk ⊢
    rw [Upsert.storedRow, if_pos hkeyMem, hheld, Option.getD_some, hk]
    exact sameKey_iff.2 ⟨k, k, rfl, rfl, rfl⟩
  rw [hmariadb, Upsert.sqlite, upsertRow_perm_replaceRow_iff hle (s.one _)]
  simp only [decide_eq_true_eq]

/-- MariaDB keeps the values that are given. -/
theorem SameMeaning.given {s : TableState db u.table} (h : SameMeaning u s) {c : String}
    (hc : c ∈ u.columns) : db.stores u.table.name c (u.row c) = some (u.row c) := by
  obtain ⟨hstores, hnew, hold⟩ := sameMeaning_iff_updates.1 h
  obtain ⟨hcolumns, -, hlisted⟩ := u.columns_eq
  by_cases hany : ∃ old ∈ s.rows, db.sameKey (old u.table.key) (u.storedRow db u.table.key) = true
  · obtain ⟨old, hmem, hsame⟩ := hany
    obtain ⟨heq, hmerge⟩ := hold old hmem hsame
    have hc' := hc
    rw [hcolumns] at hc'
    rcases List.mem_cons.1 hc' with rfl | htail
    · -- the key is one that the table holds
      rw [← heq]
      exact s.held old hmem _ (hlisted _ hc)
    · obtain ⟨v, hv⟩ := Option.isSome_iff_exists.1 (hstores c hc)
      have hval := congrFun hmerge c
      rw [Upsert.updated, if_pos htail, Upsert.storedRow, if_pos hc, hv, Option.getD_some] at hval
      rw [hv, hval]
  · have hnone : ∀ old ∈ s.rows,
        db.sameKey (old u.table.key) (u.storedRow db u.table.key) = false := by
      intro old hmem
      by_contra hne
      exact hany ⟨old, hmem, by rwa [Bool.not_eq_false] at hne⟩
    exact (storedRow_eq_row_iff hstores).1 (hnew hnone) c hc

/-- A row with the given key, as MariaDB compares, has that key and the defaults. -/
theorem SameMeaning.defaults {s : TableState db u.table} (h : SameMeaning u s) {old : Row}
    (hmem : old ∈ s.rows) (hsame : db.sameKey (old u.table.key) (u.row u.table.key) = true) :
    old u.table.key = u.row u.table.key ∧
      ∀ c ∈ u.table.columns, c ∉ u.columns → old c = u.table.initial c := by
  obtain ⟨hstores, -, hold⟩ := sameMeaning_iff_updates.1 h
  have hrow : u.storedRow db = u.row := (storedRow_eq_row_iff hstores).2 fun c hc => h.given hc
  obtain ⟨heq, hmerge⟩ := hold old hmem (hrow.symm ▸ hsame)
  refine ⟨heq, fun c hc hnot => ?_⟩
  have hval := congrFun hmerge c
  rwa [Upsert.updated, if_neg fun h => hnot (List.mem_of_mem_tail h), Upsert.row, if_pos hc,
    if_neg hnot] at hval

theorem sameMeaning_of_defaults {s : TableState db u.table}
    (hgiven : ∀ c ∈ u.columns, db.stores u.table.name c (u.row c) = some (u.row c))
    (hold : ∀ old ∈ s.rows, db.sameKey (old u.table.key) (u.row u.table.key) = true →
      old u.table.key = u.row u.table.key ∧
        ∀ c ∈ u.table.columns, c ∉ u.columns → old c = u.table.initial c) :
    SameMeaning u s := by
  obtain ⟨hcolumns, -, -⟩ := u.columns_eq
  have hstores : ∀ c ∈ u.columns, (db.stores u.table.name c (u.row c)).isSome := by
    intro c hc
    rw [hgiven c hc]
    rfl
  have hrow : u.storedRow db = u.row := (storedRow_eq_row_iff hstores).2 hgiven
  refine sameMeaning_iff_updates.2 ⟨hstores, fun _ => hrow, fun old hmem hsame => ?_⟩
  rw [hrow] at hsame ⊢
  obtain ⟨heq, hinitial⟩ := hold old hmem hsame
  refine ⟨heq, funext fun c => ?_⟩
  unfold Upsert.updated
  split
  next => rfl
  next hc =>
    by_cases hkeyed : c = u.table.key
    · rw [hkeyed]
      exact heq
    have hnot : c ∉ u.columns := by
      rw [hcolumns, List.mem_cons, not_or]
      exact ⟨hkeyed, hc⟩
    by_cases hseen : c ∈ u.table.columns
    · rw [Upsert.row, if_pos hseen, if_neg hnot]
      exact hinitial c hseen hnot
    · rw [Upsert.row, if_neg hseen]
      exact s.seen old hmem c hseen

/-- **Exactly when an upsert means the same on both engines**: MariaDB keeps the values as they
are given, takes no other key for the one that is given, and a row with that key has the defaults
in the columns that the statement does not list. -/
theorem sameMeaning_iff (u : Upsert) (s : TableState db u.table) :
    SameMeaning u s ↔
      (∀ c ∈ u.columns, db.stores u.table.name c (u.row c) = some (u.row c)) ∧
        ∀ old ∈ s.rows, db.sameKey (old u.table.key) (u.row u.table.key) = true →
          old u.table.key = u.row u.table.key ∧
            ∀ c ∈ u.table.columns, c ∉ u.columns → old c = u.table.initial c :=
  ⟨fun h => ⟨fun _ hc => h.given hc, fun _ hmem hsame => h.defaults hmem hsame⟩,
    fun ⟨hgiven, hold⟩ => sameMeaning_of_defaults hgiven hold⟩

/-- **The statements that list every column** mean the same where MariaDB keeps the values and
tells the keys apart. -/
theorem sameMeaning_iff_allListed {s : TableState db u.table}
    (hall : ∀ c ∈ u.table.columns, c ∈ u.columns) :
    SameMeaning u s ↔
      (∀ c ∈ u.columns, db.stores u.table.name c (u.row c) = some (u.row c)) ∧
        ∀ old ∈ s.rows, db.sameKey (old u.table.key) (u.row u.table.key) = true →
          old u.table.key = u.row u.table.key := by
  constructor
  · intro h
    exact ⟨fun c hc => h.given hc, fun old hmem hsame => (h.defaults hmem hsame).1⟩
  · rintro ⟨hgiven, hold⟩
    exact sameMeaning_of_defaults hgiven fun old hmem hsame =>
      ⟨hold old hmem hsame, fun c hc hnot => absurd (hall c hc) hnot⟩

end Meaning

/-! ### A title that is ignored again -/

/-- A database that keeps every value and compares texts as they are. -/
def faithfulDb : MariaDb where
  stores := fun _ _ v => some v
  collate := id

/-- A film in the queue. -/
def queuedFilm : QueueRow where
  id := 1
  embyId := "f1"
  title := "Film"
  mediaType := "Movie"
  libraryId := "l1"
  libraryName := "Films"
  filePath := "/films/film.mkv"
  detectedAt := "2026-01-01T00:00:00+00:00"
  deleteAt := "2026-02-01T00:00:00+00:00"
  tmdbId := "603"

/-- The film is ignored from the queue. -/
def ignoreFilm : Upsert := .upsertIgnored queuedFilm { ignoredAt := "2026-01-02T00:00:00+00:00" }

/-- The film is ignored by hand. -/
def ignoreByHand : Upsert :=
  .addIgnored { embyId := "f1", title := "Film" } "2026-01-03T00:00:00+00:00" none

/-- The table after the film has been ignored from the queue. -/
def ignoredOnce : TableState faithfulDb ignoredTable where
  rows := [ignoreFilm.row]
  keyed := by
    intro row hrow
    rw [List.mem_singleton.1 hrow]
    exact ⟨"f1", rfl⟩
  seen := by
    intro row hrow c hc
    rw [List.mem_singleton.1 hrow]
    exact if_neg hc
  held := fun _ _ _ _ => rfl
  apart := List.pairwise_singleton _ _

/-- A title that was ignored from the queue and is ignored again by hand keeps its identifier in
MariaDB. -/
theorem not_sameMeaning_ignoreByHand :
    ¬ ∀ (db : MariaDb) (u : Upsert) (s : TableState db u.table), SameMeaning u s := by
  intro hall
  have h := hall faithfulDb ignoreByHand ignoredOnce
  obtain ⟨-, hdefaults⟩ := h.defaults (List.mem_singleton_self _) (by decide)
  exact absurd (hdefaults "tmdb_id" (by decide) (by decide)) (by decide)

end Hygie
