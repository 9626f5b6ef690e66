/-
**Migrations that are done again.**

The application may be stopped in the middle of a migration, and it starts it again.  A migration
may then find its own work half done: each column on its own, and on some engines each change of the
schema.  It passes over what it has done before, and what is left does not depend on the
interruption.

Main definitions:

* `addMissing`, `tryInsert`, `convertInterval` — the rounds of the migrations;
* `setting` — what the settings hold.

Main results:

* `ensureColumn_resumable`, `ensureColumns_resumable`, `ensureTable_resumable` — **changes of the
  schema**;
* `m007_resumable` — **flags become notifications once**;
* `m009_resumable`, `m010_resumable`, `m012_resumable` — **settings are rewritten once**.
-/

import Hygie.Migrations

set_option relaxedAutoImplicit false
set_option autoImplicit false

namespace Hygie.Migrations

open Catalogs Transactions Program PyText

variable {cfg : MigrationConfig} {commits : Bool} {s t d w : Catalog} {table key : String}
  {column : Column}

/-! ### Columns and tables -/

theorem run_ensureColumn :
    (ensureColumn table column).run commits s =
      if column.name ∈ tableColumns s table then some s else addColumn table column s := by
  rw [run, ensureColumn, exec]
  split_ifs
  · rfl
  · rw [exec]
    exact Option.bind_fun_some _

theorem ensureColumn_resumable : (ensureColumn table column).Resumable commits := by
  refine Atomic.resumable (.read fun db => ?_) fun s t h => ?_
  · split_ifs
    · exact .oneCommit .done
    · exact .schema
  · have hthere : column.name ∈ tableColumns t table := by
      rw [run_ensureColumn] at h
      split_ifs at h with hthere
      · exact Option.some.inj h ▸ hthere
      · exact mem_tableColumns_of_addColumn h
    rw [run_ensureColumn, if_pos hthere]

theorem run_ensureTable {tab : Table} {needs : List String} :
    (ensureTable table tab needs).run commits s =
      if (s table).isSome then some s else createTable table tab needs s := by
  rw [run, ensureTable, exec]
  split_ifs
  · rfl
  · rw [exec]
    exact Option.bind_fun_some _

theorem ensureTable_resumable {tab : Table} {needs : List String} :
    (ensureTable table tab needs).Resumable commits := by
  refine Atomic.resumable (.read fun db => ?_) fun s t h => ?_
  · split_ifs
    · exact .oneCommit .done
    · exact .schema
  · have hthere : (t table).isSome = true := by
      rw [run_ensureTable] at h
      split_ifs at h with hthere
      · exact Option.some.inj h ▸ hthere
      · exact isSome_of_createTable h
    rw [run_ensureTable, if_pos hthere]

/-- What one round of `ensureColumns` does. -/
def addMissing (column : String × Column) (db : Catalog) : Option Catalog :=
  if column.2.name ∈ tableColumns db column.1 then some db else addColumn column.1 column.2 db

theorem settles_addMissing {columns : List (String × Column)} :
    Settles addMissing (fun column db => column.2.name ∈ tableColumns db column.1) columns where
  skip column _ db hthere := if_pos hthere
  does column _ db db' h := by
    rw [addMissing] at h
    split_ifs at h with hthere
    · exact Option.some.inj h ▸ hthere
    · exact mem_tableColumns_of_addColumn h
  keeps column _ other _ db db' hthere h := by
    rw [addMissing] at h
    split_ifs at h with hother
    · exact Option.some.inj h ▸ hthere
    · rw [tableColumns_addColumn h]
      split_ifs with heq
      · rw [heq] at hthere
        exact List.mem_append_left _ hthere
      · exact hthere

theorem exec_ensureColumns {columns : List (String × Column)} :
    (ensureColumns columns).exec commits d w =
      columns.foldlM (fun db column => addMissing column db) w := by
  induction columns generalizing d w with
  | nil => rfl
  | cons column columns ih =>
      rw [ensureColumns, exec, List.foldlM_cons, addMissing]
      split_ifs
      · exact ih
      · rw [exec]
        exact Option.bind_congr fun changed _ => ih

/-- What is left of `ensureColumns`: nothing of it, or some of its rounds. -/
theorem interrupted_ensureColumns {columns : List (String × Column)}
    (h : (ensureColumns columns).Interrupted commits d w t) :
    t = d ∨ ∃ some', some' <+: columns ∧
      some'.foldlM (fun db column => addMissing column db) w = some t := by
  induction columns generalizing d w with
  | nil =>
      rcases h with h | h
      · exact .inl h
      · exact .inr ⟨[], List.prefix_refl _, congrArg some (Eq.symm h)⟩
  | cons column columns ih =>
      have hcons : ∀ changed, addMissing column w = some changed → ∀ d',
          (d' = d ∨ d' = changed) → (ensureColumns columns).Interrupted commits d' changed t →
          t = d ∨ ∃ some', some' <+: column :: columns ∧
            some'.foldlM (fun db column => addMissing column db) w = some t := by
        rintro changed hchanged d' hd' hrest
        have hone : [column].foldlM (fun db column => addMissing column db) w = some changed := by
          rw [List.foldlM_cons, hchanged]
          rfl
        rcases ih hrest with hdurable | ⟨some', hinitial, hfold⟩
        · rcases hd' with rfl | rfl
          · exact .inl hdurable
          · exact .inr ⟨[column], by simp, hdurable ▸ hone⟩
        · refine .inr ⟨column :: some', (List.prefix_cons_inj _).2 hinitial, ?_⟩
          rw [List.foldlM_cons, hchanged]
          exact hfold
      rw [ensureColumns, Interrupted] at h
      split_ifs at h with hthere
      · exact hcons w (if_pos hthere) d (.inl rfl) h
      · rcases h with h | h | ⟨changed, hchanged, hrest⟩
        · exact .inl h
        · rw [committed] at h
          split_ifs at h
          · exact .inr ⟨[], List.nil_prefix, congrArg some h.symm⟩
          · exact .inl h
        · refine hcons changed ((if_neg hthere).trans hchanged) _ ?_ hrest
          rw [committed]
          split_ifs
          · exact .inr rfl
          · exact .inl rfl

theorem ensureColumns_resumable {columns : List (String × Column)} :
    (ensureColumns columns).Resumable commits := by
  intro s t h
  rw [run, run, exec_ensureColumns, exec_ensureColumns]
  rcases interrupted_ensureColumns h with rfl | ⟨some', hinitial, hfold⟩
  · rfl
  · exact settles_addMissing.foldlM_resume hinitial hfold

/-- The columns of `_m006_fix_mariadb_expert_rules_schema`. -/
def expertRulesColumns (cfg : MigrationConfig) : List (String × Column) :=
  [("expert_rules",
      { name := "library_ids", type := cfg.byDialect "LONGTEXT DEFAULT NULL" "TEXT DEFAULT NULL" }),
    ("expert_rules",
      { name := "grace_days"
        type := cfg.byDialect "INT NOT NULL DEFAULT 7" "INTEGER NOT NULL DEFAULT 7"
        default := .int 7 })]

/-- That the columns are read once makes no difference: neither of the two is the other. -/
theorem mem_of_addColumn_libraryIds {c : Column} (hc : c.name = "library_ids")
    (h : addColumn "expert_rules" c s = some t) :
    "grace_days" ∈ tableColumns t "expert_rules" ↔
      "grace_days" ∈ tableColumns s "expert_rules" := by
  rw [tableColumns_addColumn h, if_pos rfl, List.mem_append, List.mem_singleton, hc]
  exact or_iff_left (by decide)

theorem run_m006 : (m006FixMariadbExpertRulesSchema cfg).run commits s =
    (ensureColumns (expertRulesColumns cfg)).run commits s := by
  rw [run, run, m006FixMariadbExpertRulesSchema, expertRulesColumns, exec, ensureColumns, exec]
  by_cases hids : "library_ids" ∈ tableColumns s "expert_rules"
  · simp only [hids, if_true, ensureColumns, exec]
  · simp only [hids, if_false, exec]
    refine Option.bind_congr fun changed hchanged => ?_
    have hdays := mem_of_addColumn_libraryIds rfl hchanged
    simp only [ensureColumns, exec, hdays]

theorem interrupted_m006 (h : (m006FixMariadbExpertRulesSchema cfg).Interrupted commits s s t) :
    (ensureColumns (expertRulesColumns cfg)).Interrupted commits s s t := by
  rw [m006FixMariadbExpertRulesSchema, Interrupted] at h
  rw [expertRulesColumns, ensureColumns, Interrupted]
  by_cases hids : "library_ids" ∈ tableColumns s "expert_rules"
  · simp only [hids, if_true] at h ⊢
    rwa [ensureColumns, Interrupted]
  · simp only [hids, if_false] at h ⊢
    rcases h with h | h | ⟨changed, hchanged, h⟩
    · exact .inl h
    · exact .inr (.inl h)
    · refine .inr (.inr ⟨changed, hchanged, ?_⟩)
      have hdays := mem_of_addColumn_libraryIds rfl hchanged
      simp only [ensureColumns, Interrupted, hdays]
      exact h

theorem m006_resumable : (m006FixMariadbExpertRulesSchema cfg).Resumable commits := by
  intro s t h
  rw [run_m006, run_m006]
  exact ensureColumns_resumable s t (interrupted_m006 h)

/-! ### Statements on one table -/

/-- A statement that leaves its own result alone. -/
theorem modify_idem {needs : List String} {change : Table → List Row}
    (hfixed : ∀ tab : Table, change { tab with rows := change tab } = change tab)
    (h : Catalogs.modify table needs change s = some t) :
    Catalogs.modify table needs change t = some t := by
  obtain ⟨tab, _, hneeds, rfl⟩ := modify_eq_some_iff.1 h
  exact modify_of_fixed (Function.update_self ..) hneeds (hfixed tab)

theorem backfillLibraries_idem {c : String} {v : Value} (h : backfillLibraries cfg c v s = some t) :
    backfillLibraries cfg c v t = some t := by
  refine modify_idem (fun tab => ?_) h
  simp only [List.map_map]
  exact List.map_congr_left fun row _ => fillBlank_fixed

theorem m005_resumable : (m005NormalizeLibraryServerId cfg).Resumable commits := by
  have hrun : ∀ s, (m005NormalizeLibraryServerId cfg).run commits s =
      backfillLibraries cfg "server_id" (.text "0") s := fun s => Option.bind_fun_some _
  refine Atomic.resumable (.oneCommit (.write .commit)) fun s t h => ?_
  rw [hrun] at h ⊢
  exact backfillLibraries_idem h

/-- The statement of `_m013_purge_verbose_scan_logs`. -/
def purgeLogs (cfg : MigrationConfig) : Catalog → Option Catalog :=
  Catalogs.modify "logs" ["message"] fun tab => tab.rows.filter fun row => !isVerbose cfg row

/-- Nothing is lost of a statement that deletes nothing. -/
theorem purgeLogs_eq_self
    (hpurged : ¬((s "logs").map fun t => t.rows.any (isVerbose cfg)).getD false = true)
    (h : purgeLogs cfg s = some t) : t = s := by
  obtain ⟨tab, htab, hneeds, rfl⟩ := modify_eq_some_iff.1 h
  have hfixed : tab.rows.filter (fun row => !isVerbose cfg row) = tab.rows := by
    refine List.filter_eq_self.2 fun row hrow => ?_
    simp only [htab, Option.map_some, Option.getD_some, List.any_eq_true, not_exists, not_and,
      Bool.not_eq_true] at hpurged
    rw [hpurged row hrow]
    rfl
  rw [hfixed, ← htab, Function.update_eq_self]

theorem m013_resumable : (m013PurgeVerboseScanLogs cfg).Resumable commits := by
  have hrun : ∀ s, (m013PurgeVerboseScanLogs cfg).run commits s = purgeLogs cfg s := by
    intro s
    rw [run, m013PurgeVerboseScanLogs, exec, exec]
    by_cases hpurged : ((s "logs").map fun t => t.rows.any (isVerbose cfg)).getD false = true
    · rw [if_pos hpurged]
      exact Option.bind_fun_some _
    · rw [if_neg hpurged]
      change (purgeLogs cfg s).bind _ = _
      cases hpurge : purgeLogs cfg s with
      | none => rfl
      | some left =>
          obtain rfl := purgeLogs_eq_self hpurged hpurge
          exact congrArg some committed_data
  refine Atomic.resumable (.read fun db => .oneCommit (.write ?_)) fun s t h => ?_
  · split_ifs
    · exact .commit
    · exact .done
  · rw [hrun] at h ⊢
    refine modify_idem (fun tab => ?_) h
    simp only [List.filter_filter, Bool.and_self]

/-! ### Notifications -/

theorem same_refl (v : Value) : cfg.same v v = true := by
  cases v <;> simp [MigrationConfig.same]

/-- What a statement does whose failure is passed over. -/
def tryInsert (cfg : MigrationConfig) (pairs : List (Key × String))
    (db : Catalog) : Option Catalog :=
  some ((insertNotifications cfg pairs db).getD db)

/-- The rows that `insertNotifications` leaves. -/
def notifiedRows (cfg : MigrationConfig) (pairs : List (Key × String)) (tab : Table) : List Row :=
  pairs.foldl (fun rows pair => insertOrIgnore cfg.same ["media_id", "threshold"] rows
    (tab.newRow [("media_id", pair.1.value), ("threshold", .text pair.2)])) tab.rows

/-- The statement changes the rows of a table that has its columns, and nothing else. -/
theorem tryInsert_eq (cfg : MigrationConfig) (pairs : List (Key × String)) (db : Catalog) :
    (∃ tab, db "notifications" = some tab ∧ (∀ c ∈ ["media_id", "threshold"], c ∈ tab.names) ∧
        tryInsert cfg pairs db = some (Function.update db "notifications" (some
          { tab with rows := notifiedRows cfg pairs tab }))) ∨
      (∀ tab, db "notifications" = some tab → ¬∀ c ∈ ["media_id", "threshold"], c ∈ tab.names) ∧
        tryInsert cfg pairs db = some db := by
  rw [tryInsert]
  cases hinsert : insertNotifications cfg pairs db with
  | none =>
      refine .inr ⟨fun tab htab hneeds => ?_, rfl⟩
      rw [insertNotifications, Catalogs.modify, htab, Option.bind_some, if_pos hneeds] at hinsert
      cases hinsert
  | some left =>
      obtain ⟨tab, htab, hneeds, rfl⟩ := modify_eq_some_iff.1 hinsert
      exact .inl ⟨tab, htab, hneeds, rfl⟩

/-- There is a notification for each pair, if there can be. -/
def Notified (cfg : MigrationConfig) (pairs : List (Key × String)) (db : Catalog) : Prop :=
  ∀ tab, db "notifications" = some tab → (∀ c ∈ ["media_id", "threshold"], c ∈ tab.names) →
    ∀ pair ∈ pairs, ∃ old ∈ tab.rows, ∀ c ∈ ["media_id", "threshold"],
      cfg.same (old.cell c)
        ((tab.newRow [("media_id", pair.1.value), ("threshold", .text pair.2)]).cell c) = true

theorem settles_tryInsert {batches : List (List (Key × String))} :
    Settles (tryInsert cfg) (Notified cfg) batches where
  skip pairs _ db hdone := by
    rcases tryInsert_eq cfg pairs db with ⟨tab, htab, hneeds, h⟩ | ⟨_, h⟩
    · rw [h, notifiedRows, foldl_insertOrIgnore_fixed (hdone tab htab hneeds), ← htab,
        Function.update_eq_self]
    · exact h
  does pairs _ db db' h := by
    intro tab' htab' hneeds' pair hpair
    rcases tryInsert_eq cfg pairs db with ⟨tab, htab, hneeds, heq⟩ | ⟨hnone, heq⟩
    · obtain rfl := Option.some.inj (heq.symm.trans h)
      rw [Function.update_self] at htab'
      obtain rfl := Option.some.inj htab'
      exact exists_foldl_insertOrIgnore same_refl pair hpair
    · obtain rfl := Option.some.inj (heq.symm.trans h)
      exact absurd hneeds' (hnone tab' htab')
  keeps pairs _ other _ db db' hdone h := by
    rcases tryInsert_eq cfg other db with ⟨tab, htab, hneeds, heq⟩ | ⟨_, heq⟩
    · obtain rfl := Option.some.inj (heq.symm.trans h)
      intro tab' htab' _ pair hpair
      rw [Function.update_self] at htab'
      obtain rfl := Option.some.inj htab'
      obtain ⟨old, hold, hsame⟩ := hdone tab htab hneeds pair hpair
      exact ⟨old, subset_foldl_insertOrIgnore hold, hsame⟩
    · obtain rfl := Option.some.inj (heq.symm.trans h)
      exact hdone

theorem tryInsert_other {pairs : List (Key × String)} {db db' : Catalog}
    (h : tryInsert cfg pairs db = some db') {other : String} (hne : other ≠ "notifications") :
    db' other = db other := by
  rcases tryInsert_eq cfg pairs db with ⟨tab, _, _, heq⟩ | ⟨_, heq⟩
  · obtain rfl := Option.some.inj (heq.symm.trans h)
    exact Function.update_of_ne hne ..
  · obtain rfl := Option.some.inj (heq.symm.trans h)
    rfl

/-- What is inserted: the items of each flag together, and the listed thresholds one by one. -/
def notificationBatches (cfg : MigrationConfig) (db : Catalog) : List (List (Key × String)) :=
  (legacyFlags.map fun flag => (flaggedPairs db flag).getD []) ++
    (listedPairs cfg (listedRows cfg db)).map fun pair => [pair]

theorem notificationBatches_congr (h : t "media_queue" = s "media_queue") :
    notificationBatches cfg t = notificationBatches cfg s := by
  simp only [notificationBatches, flaggedPairs, listedRows, h]

theorem foldlM_tryInsert_other {batches : List (List (Key × String))}
    (h : batches.foldlM (fun db pairs => tryInsert cfg pairs db) s = some t) :
    t "media_queue" = s "media_queue" :=
  foldlM_keeps (P := fun db : Catalog => db "media_queue" = s "media_queue")
    (fun _ _ _ _ hqueue hstep => (tryInsert_other hstep (by decide)).trans hqueue) rfl h

/-- The flags are read as they were before: only the notifications change. -/
theorem foldlM_flags {flags : List (String × String)} (hqueue : w "media_queue" = s "media_queue") :
    flags.foldlM (fun db flag => some (((flaggedPairs db flag).bind fun pairs =>
        insertNotifications cfg pairs db).getD db)) w =
      (flags.map fun flag => (flaggedPairs s flag).getD []).foldlM
        (fun db pairs => tryInsert cfg pairs db) w := by
  induction flags generalizing w with
  | nil => rfl
  | cons flag flags ih =>
      have hflag : some (((flaggedPairs w flag).bind fun pairs =>
          insertNotifications cfg pairs w).getD w) =
            tryInsert cfg ((flaggedPairs s flag).getD []) w := by
        rw [show flaggedPairs w flag = flaggedPairs s flag by simp only [flaggedPairs, hqueue]]
        cases flaggedPairs s flag with
        | none =>
            exact (settles_tryInsert.skip [] (List.mem_singleton_self _) w fun _ _ _ => nofun).symm
        | some pairs => rfl
      rw [List.foldlM_cons, hflag, List.map_cons, List.foldlM_cons]
      refine Option.bind_congr fun w' hw' => ih ?_
      rw [tryInsert_other hw' (by decide), hqueue]

theorem run_m007 : (m007MigrateNotificationColumns cfg).run commits s =
    (notificationBatches cfg s).foldlM (fun db pairs => tryInsert cfg pairs db) s := by
  rw [run, m007MigrateNotificationColumns]
  simp only [attempt]
  rw [exec_writes, foldlM_flags rfl, notificationBatches,
    List.foldlM_append]
  refine Option.bind_congr fun w hw => ?_
  have hqueue := foldlM_tryInsert_other hw
  rw [exec, exec_writes, show listedRows cfg w = listedRows cfg s by simp only [listedRows, hqueue],
    List.foldlM_map]
  exact Option.bind_fun_some _

theorem m007_resumable : (m007MigrateNotificationColumns cfg).Resumable commits := by
  refine Atomic.resumable (.oneCommit (oneCommit_writes (.read fun _ => oneCommit_writes .commit)))
    fun s t h => ?_
  rw [run_m007] at h ⊢
  rw [notificationBatches_congr (foldlM_tryInsert_other h)]
  exact settles_tryInsert.foldlM_skip (settles_tryInsert.foldlM_does h)

/-! ### Settings -/

/-- The value of a setting, if there is the table. -/
def setting (key : String) (db : Catalog) : Option (Option Value) :=
  (db "settings").map fun t => (findKey (.text key) t.rows).map fun row => row.cell "value"

theorem exec_fetchSetting {next : Option Value → Program Catalog} :
    (fetchSetting key next).exec commits d w =
      (setting key w).bind fun v => (next v).exec commits d w := by
  rw [fetchSetting, exec, setting]
  cases w "settings" <;> rfl

theorem interrupted_fetchSetting {next : Option Value → Program Catalog}
    (h : (fetchSetting key next).Interrupted commits d w t) :
    t = d ∨ ∃ v, setting key w = some v ∧ (next v).Interrupted commits d w t := by
  rw [fetchSetting, Interrupted] at h
  rw [setting]
  cases hsettings : w "settings" with
  | none =>
      rw [hsettings] at h
      exact .inl h
  | some tab =>
      rw [hsettings] at h
      exact .inr ⟨_, rfl, h⟩

theorem oneCommit_fetchSetting {next : Option Value → Program Catalog}
    (h : ∀ v, OneCommit (next v)) :
    OneCommit (fetchSetting key next) := by
  refine .read fun db => ?_
  split
  · exact .fail
  · exact h _

theorem atomic_fetchSetting {next : Option Value → Program Catalog} (h : ∀ v, Atomic (next v)) :
    Atomic (fetchSetting key next) := by
  refine .read fun db => ?_
  split
  · exact .oneCommit .fail
  · exact h _

/-- What a statement on the settings leaves of each of them. -/
theorem setting_modify (key : String) {needs : List String} {change : Table → List Row}
    (h : Catalogs.modify "settings" needs change s = some t) :
    ∃ tab, s "settings" = some tab ∧
      setting key t =
        some ((findKey (.text key) (change tab)).map fun row => row.cell "value") := by
  obtain ⟨tab, htab, _, rfl⟩ := modify_eq_some_iff.1 h
  refine ⟨tab, htab, ?_⟩
  rw [setting, Function.update_self]
  rfl

theorem setting_upsertSetting {v : Value} (h : upsertSetting key v s = some t) :
    setting key t = some (some v) := by
  obtain ⟨tab, _, hset⟩ := setting_modify key h
  obtain ⟨found, hfound, hcell⟩ := exists_findKey_upsert (.text key) "value" v tab.rows
  rw [hset, hfound, Option.map_some, hcell]

theorem text_ne_text {key' : String} (hne : key ≠ key') : Key.text key ≠ .text key' :=
  fun h => hne (Key.text.inj h)

theorem setting_upsertSetting_of_ne {v : Value} {key' : String} (hne : key ≠ key')
    (h : upsertSetting key v s = some t) : setting key' t = setting key' s := by
  obtain ⟨tab, htab, hset⟩ := setting_modify key' h
  rw [hset, findKey_upsert_of_ne (text_ne_text hne), setting, htab]
  rfl

theorem setting_deleteSetting (h : deleteSetting key s = some t) : setting key t = some none := by
  obtain ⟨tab, _, hset⟩ := setting_modify key h
  rw [hset, findKey_deleteKey]
  rfl

theorem setting_deleteSetting_of_ne {key' : String} (hne : key ≠ key')
    (h : deleteSetting key s = some t) : setting key' t = setting key' s := by
  obtain ⟨tab, htab, hset⟩ := setting_modify key' h
  rw [hset, findKey_deleteKey_of_ne (text_ne_text hne), setting, htab]
  rfl

/-- A setting that is not there is not deleted. -/
theorem deleteSetting_of_none (h : setting key s = some none) : deleteSetting key s = some s := by
  obtain ⟨tab, htab, hnone⟩ := Option.map_eq_some_iff.1 h
  refine modify_of_fixed htab (fun _ => nofun) (deleteKey_fixed ?_)
  exact findKey_eq_none.1 (Option.map_eq_none_iff.1 hnone)

theorem opened_encryptValue {v : String} : opened (some (cfg.encryptValue v)) = v := by
  rw [MigrationConfig.encryptValue]
  split_ifs <;> rfl

theorem take_dumpServer {url apiKey extUrl type : String} :
    (dumpServer url apiKey extUrl type).toList.take 2 = ['[', '\x7b'] := by
  delta dumpServer
  rw [String.toList_append]
  simp

/-- A list with a server is populated. -/
theorem isPopulated_dumpServer {url apiKey extUrl type : String} :
    isPopulated (some (cfg.encryptValue (dumpServer url apiKey extUrl type))) = true := by
  rw [isPopulated, opened_encryptValue, decide_eq_true_eq]
  intro hempty
  have hlong : (dumpServer url apiKey extUrl type).toList.take 2 = ['[', '\x7b'] := take_dumpServer
  simp only [List.mem_cons, List.not_mem_nil, or_false] at hempty
  rcases hempty with h | h | h <;> rw [h] at hlong <;> exact absurd hlong (by decide)

theorem m009_resumable : (m009MigrateLegacyEmbyToMediaServers cfg).Resumable commits := by
  refine Atomic.resumable (atomic_fetchSetting fun ms => ?_) fun s t h => ?_
  · split_ifs
    · exact .oneCommit .done
    · refine .reconnect (atomic_fetchSetting fun url => ?_)
      split
      · exact .oneCommit .done
      · exact .reconnect (atomic_fetchSetting fun _ => atomic_fetchSetting fun _ =>
          atomic_fetchSetting fun _ => .reconnect (.oneCommit (.write .commit)))
  · have hwritten : t = s ∨ ∃ ms, setting "media_servers" t = some ms ∧ isPopulated ms = true := by
      simp only [run, m009MigrateLegacyEmbyToMediaServers, exec_fetchSetting] at h
      obtain ⟨ms, _, h⟩ := Option.bind_eq_some_iff.1 h
      split_ifs at h with hpopulated
      · exact .inl (Option.some.inj h).symm
      · rw [exec, exec_fetchSetting] at h
        obtain ⟨url, _, h⟩ := Option.bind_eq_some_iff.1 h
        split at h
        · exact .inl (Option.some.inj h).symm
        · simp only [exec, exec_fetchSetting] at h
          obtain ⟨_, _, h⟩ := Option.bind_eq_some_iff.1 h
          obtain ⟨_, _, h⟩ := Option.bind_eq_some_iff.1 h
          obtain ⟨_, _, h⟩ := Option.bind_eq_some_iff.1 h
          obtain ⟨left, hleft, h⟩ := Option.bind_eq_some_iff.1 h
          obtain rfl := Option.some.inj h
          exact .inr ⟨_, setting_upsertSetting hleft, isPopulated_dumpServer⟩
    rcases hwritten with rfl | ⟨ms, hms, hpopulated⟩
    · exact h
    · rw [run, m009MigrateLegacyEmbyToMediaServers, exec_fetchSetting, hms, Option.bind_some,
        if_pos hpopulated]
      rfl

/-! ### The second version -/

/-- What `_m010_v2_to_v3_data` does to a column of the libraries. -/
def backfillIfThere (cfg : MigrationConfig) (c : String) (v : Value)
    (db : Catalog) : Option Catalog :=
  if c ∈ tableColumns db "libraries" then backfillLibraries cfg c v db else some db

/-- What it does to the settings of the single server. -/
def dropSingleServer (db : Catalog) : Option Catalog :=
  (setting "media_servers" db).bind fun ms =>
    if isStored ms then singleServerKeys.foldlM (fun db key => deleteSetting key db) db else some db

theorem exec_backfillIfThere {c : String} {v : Value} {next : Program Catalog} :
    (Program.read fun db =>
      if c ∈ tableColumns db "libraries" then .write .data (backfillLibraries cfg c v) next
      else next).exec commits d w = (backfillIfThere cfg c v w).bind (next.exec commits d) := by
  rw [exec, backfillIfThere]
  split_ifs
  · rw [exec]
    exact Option.bind_congr fun changed _ => by rw [committed_data]
  · rfl

theorem exec_dropSingleServer : (fetchSetting "media_servers" fun msRow =>
    if isStored msRow then
      singleServerKeys.foldr (fun key next => .write .data (deleteSetting key) next) (.commit .done)
    else .commit .done).exec commits d w = dropSingleServer w := by
  rw [exec_fetchSetting, dropSingleServer]
  refine Option.bind_congr fun ms _ => ?_
  split_ifs
  · rw [exec_writes]
    exact Option.bind_fun_some _
  · rfl

theorem run_m010 : (m010V2ToV3Data cfg).run commits s =
    (backfillIfThere cfg "server_id" (.text "0") s).bind fun s =>
      (backfillIfThere cfg "deletion_unit" (.text "episode") s).bind dropSingleServer := by
  simp only [run, m010V2ToV3Data]
  rw [exec_backfillIfThere]
  refine Option.bind_congr fun changed _ => ?_
  rw [exec_backfillIfThere]
  exact Option.bind_congr fun changed _ => exec_dropSingleServer

theorem tableColumns_modify {needs : List String} {change : Table → List Row} {other : String}
    (h : Catalogs.modify table needs change s = some t) :
    tableColumns t other = tableColumns s other := by
  obtain ⟨tab, htab, _, rfl⟩ := modify_eq_some_iff.1 h
  by_cases heq : other = table
  · subst heq
    simp [tableColumns, htab, Table.names]
  · simp [tableColumns, Function.update_of_ne heq]

theorem backfillIfThere_idem {c : String} {v : Value} (h : backfillIfThere cfg c v s = some t) :
    backfillIfThere cfg c v t = some t := by
  rw [backfillIfThere] at h ⊢
  split_ifs at h with hthere
  · rw [if_pos (tableColumns_modify h ▸ hthere)]
    exact backfillLibraries_idem h
  · rw [← Option.some.inj h, if_neg hthere]

/-- A backfill changes nothing where no cell is blank. -/
theorem backfillIfThere_eq_self_iff {c : String} {v : Value} :
    backfillIfThere cfg c v s = some s ↔
      ∀ tab, s "libraries" = some tab → c ∈ tab.names → ∀ row ∈ tab.rows,
        fillBlank cfg.blank c v row = row := by
  have hnames : ∀ tab, s "libraries" = some tab → tableColumns s "libraries" = tab.names := by
    intro tab htab
    rw [tableColumns, htab]
    rfl
  rw [backfillIfThere]
  split_ifs with hthere
  · constructor
    · intro h tab htab hc row hrow
      obtain ⟨tab', htab', _, heq⟩ := modify_eq_some_iff.1 h
      obtain rfl := Option.some.inj (htab.symm.trans htab')
      have hlibraries := congrFun heq "libraries"
      rw [Function.update_self, htab, Option.some.injEq] at hlibraries
      have hrows : tab.rows.map (fillBlank cfg.blank c v) = tab.rows :=
        (congrArg Table.rows hlibraries).symm
      rw [← List.map_id tab.rows, List.map_map, List.map_inj_left] at hrows
      exact hrows row hrow
    · intro h
      cases hlibraries : s "libraries" with
      | none => rw [tableColumns, hlibraries] at hthere; cases hthere
      | some tab =>
          rw [hnames tab hlibraries] at hthere
          refine modify_of_fixed hlibraries (by simpa using hthere) ?_
          exact (List.map_congr_left (h tab hlibraries hthere)).trans (List.map_id' _)
  · refine iff_of_true rfl fun tab htab hc => ?_
    exact absurd (hnames tab htab ▸ hc) hthere

theorem backfillIfThere_congr {c : String} {v : Value} (heq : t "libraries" = s "libraries")
    (h : backfillIfThere cfg c v s = some s) : backfillIfThere cfg c v t = some t := by
  rw [backfillIfThere_eq_self_iff] at h ⊢
  rwa [heq]

theorem backfillIfThere_comm {c c' : String} {v v' : Value} (hne : c ≠ c')
    (h : backfillIfThere cfg c v s = some s) (h' : backfillIfThere cfg c' v' s = some t) :
    backfillIfThere cfg c v t = some t := by
  rw [backfillIfThere] at h'
  split_ifs at h'
  · obtain ⟨tab, htab, _, rfl⟩ := modify_eq_some_iff.1 h'
    rw [backfillIfThere_eq_self_iff] at h ⊢
    intro tab' htab' hc row hrow
    rw [Function.update_self] at htab'
    obtain rfl := Option.some.inj htab'
    obtain ⟨old, hold, rfl⟩ := List.mem_map.1 hrow
    exact fillBlank_comm hne (h tab htab hc old hold)
  · obtain rfl := Option.some.inj h'
    exact h

theorem settles_deleteSetting {keys : List String} :
    Settles deleteSetting (fun key db => setting key db = some none) keys where
  skip _ _ _ := deleteSetting_of_none
  does _ _ _ _ := setting_deleteSetting
  keeps key _ other _ db db' hdone h := by
    by_cases heq : other = key
    · exact heq ▸ setting_deleteSetting h
    · rw [setting_deleteSetting_of_ne heq h, hdone]

theorem setting_foldlM_deleteSetting {keys : List String} (hkey : key ∉ keys)
    (h : keys.foldlM (fun db key => deleteSetting key db) s = some t) :
    setting key t = setting key s := by
  refine foldlM_keeps (P := fun db => setting key db = setting key s) ?_ rfl h
  intro other hother s' t' hs' hstep
  exact (setting_deleteSetting_of_ne (ne_of_mem_of_not_mem hother hkey) hstep).trans hs'

theorem dropSingleServer_idem (h : dropSingleServer s = some t) : dropSingleServer t = some t := by
  rw [dropSingleServer] at h
  obtain ⟨ms, hms, h⟩ := Option.bind_eq_some_iff.1 h
  split_ifs at h with hstored
  · rw [dropSingleServer, setting_foldlM_deleteSetting (by decide) h, hms, Option.bind_some,
      if_pos hstored]
    exact settles_deleteSetting.foldlM_skip (settles_deleteSetting.foldlM_does h)
  · obtain rfl := Option.some.inj h
    rw [dropSingleServer, hms, Option.bind_some, if_neg hstored]

theorem dropSingleServer_libraries (h : dropSingleServer s = some t) :
    t "libraries" = s "libraries" := by
  obtain ⟨ms, _, h⟩ := Option.bind_eq_some_iff.1 h
  split_ifs at h
  · exact foldlM_keeps (P := fun db : Catalog => db "libraries" = s "libraries")
      (fun _ _ _ _ hs hstep => (modify_other hstep (by decide)).trans hs) rfl h
  · rw [Option.some.inj h]

theorem m010_resumable : (m010V2ToV3Data cfg).Resumable commits := by
  have hbackfill : ∀ {c : String} {v : Value} {next : Program Catalog}, OneCommit next →
      OneCommit (.read fun db => if c ∈ tableColumns db "libraries" then
        .write .data (backfillLibraries cfg c v) next else next) := by
    intro c v next hnext
    refine .read fun db => ?_
    split_ifs
    · exact .write hnext
    · exact hnext
  have hatomic : Atomic (m010V2ToV3Data cfg) := by
    refine .oneCommit (hbackfill (hbackfill (oneCommit_fetchSetting fun ms => ?_)))
    split_ifs
    · exact oneCommit_writes .commit
    · exact .commit
  refine Atomic.resumable hatomic fun s t h => ?_
  rw [run_m010] at h ⊢
  refine idem_bind (fun _ _ => backfillIfThere_idem) (fun s t h => ?_) (fun s t hs h => ?_) h
  · refine idem_bind (fun _ _ => backfillIfThere_idem) (fun _ _ => dropSingleServer_idem) ?_ h
    exact fun s t hs h => backfillIfThere_congr (dropSingleServer_libraries h) hs
  · obtain ⟨left, hleft, hdrop⟩ := Option.bind_eq_some_iff.1 h
    exact backfillIfThere_congr (dropSingleServer_libraries hdrop)
      (backfillIfThere_comm (by decide) hs hleft)

/-! ### Intervals -/

/-- What one round of `_m012_interval_hours_to_minutes` does. -/
def convertInterval (keys : String × String) (db : Catalog) : Option Catalog :=
  (setting keys.1 db).bind fun row =>
    if isDigits (opened row) then
      (setting keys.2 db).bind fun existing =>
        (if existing.isSome then some db
          else (pyInt (opened row)).bind fun hours =>
            upsertSetting keys.2 (.text (Int.repr (hours * 60))) db).bind (deleteSetting keys.1)
    else some db

theorem exec_hoursToMinutes {l : List (String × String)} :
    (hoursToMinutes l).exec commits d w = l.foldlM (fun db keys => convertInterval keys db) w := by
  induction l generalizing w with
  | nil => rfl
  | cons keys l ih =>
      have hremove : ∀ w',
          (write Kind.data (deleteSetting keys.1) (hoursToMinutes l)).exec commits d w' =
          (deleteSetting keys.1 w').bind fun w =>
          l.foldlM (fun db keys => convertInterval keys db) w := by
        intro w'
        rw [exec]
        refine Option.bind_congr fun changed _ => ?_
        rw [committed_data, ih]
      rw [hoursToMinutes, exec_fetchSetting, List.foldlM_cons, convertInterval, Option.bind_eq_bind,
        Option.bind_assoc]
      refine Option.bind_congr fun row _ => ?_
      split_ifs
      · rw [exec_fetchSetting, Option.bind_assoc]
        refine Option.bind_congr fun existing _ => ?_
        split_ifs
        · rw [hremove, Option.bind_some]
        · cases pyInt (opened row) with
          | none => rfl
          | some hours =>
              rw [exec, Option.bind_some, Option.bind_assoc]
              refine Option.bind_congr fun changed _ => ?_
              rw [committed_data, hremove]
      · exact ih

theorem oneCommit_hoursToMinutes {l : List (String × String)} : OneCommit (hoursToMinutes l) := by
  induction l with
  | nil => exact .commit
  | cons keys l ih =>
      refine oneCommit_fetchSetting fun row => ?_
      split_ifs
      · refine oneCommit_fetchSetting fun existing => ?_
        split_ifs
        · exact .write ih
        · split
          · exact .fail
          · exact .write (.write ih)
      · exact ih

variable {keys : String × String}

/-- Behind a round there is no number of hours. -/
theorem setting_of_convertInterval (h : convertInterval keys s = some t) :
    ∃ row, setting keys.1 t = some row ∧ isDigits (opened row) = false := by
  obtain ⟨row, hrow, h⟩ := Option.bind_eq_some_iff.1 h
  split_ifs at h with hdigits
  · obtain ⟨existing, _, h⟩ := Option.bind_eq_some_iff.1 h
    obtain ⟨left, _, hdelete⟩ := Option.bind_eq_some_iff.1 h
    exact ⟨none, setting_deleteSetting hdelete, by decide⟩
  · obtain rfl := Option.some.inj h
    exact ⟨row, hrow, Bool.not_eq_true _ ▸ hdigits⟩

theorem convertInterval_eq_self {row : Option Value} (hrow : setting keys.1 s = some row)
    (hdigits : isDigits (opened row) = false) : convertInterval keys s = some s := by
  rw [convertInterval, hrow, Option.bind_some, if_neg (by rw [hdigits]; decide)]

theorem setting_convertInterval_of_ne (h : convertInterval keys s = some t) (hhours : keys.1 ≠ key)
    (hminutes : keys.2 ≠ key) : setting key t = setting key s := by
  obtain ⟨row, _, h⟩ := Option.bind_eq_some_iff.1 h
  split_ifs at h
  · obtain ⟨existing, _, h⟩ := Option.bind_eq_some_iff.1 h
    obtain ⟨left, hleft, hdelete⟩ := Option.bind_eq_some_iff.1 h
    rw [setting_deleteSetting_of_ne hhours hdelete]
    split_ifs at hleft
    · rw [Option.some.inj hleft]
    · obtain ⟨hours, _, hupsert⟩ := Option.bind_eq_some_iff.1 hleft
      exact setting_upsertSetting_of_ne hminutes hupsert
  · rw [Option.some.inj h]

theorem convertInterval_idem (h : convertInterval keys s = some t) :
    convertInterval keys t = some t := by
  obtain ⟨row, hrow, hdigits⟩ := setting_of_convertInterval h
  exact convertInterval_eq_self hrow hdigits

theorem m012_resumable : m012IntervalHoursToMinutes.Resumable commits := by
  refine Atomic.resumable (.oneCommit oneCommit_hoursToMinutes) fun s t h => ?_
  rw [run, m012IntervalHoursToMinutes, exec_hoursToMinutes, intervalKeys, List.foldlM_cons] at h ⊢
  refine idem_bind (fun _ _ => convertInterval_idem) (fun s t h => ?_) (fun s t hs h => ?_) h
  · rw [List.foldlM_cons] at h ⊢
    obtain ⟨left, hleft, hdone⟩ := Option.bind_eq_some_iff.1 h
    obtain rfl := Option.some.inj hdone
    rw [convertInterval_idem hleft]
    rfl
  · rw [List.foldlM_cons] at h
    obtain ⟨left, hleft, hdone⟩ := Option.bind_eq_some_iff.1 h
    obtain rfl := Option.some.inj hdone
    obtain ⟨row, hrow, hdigits⟩ := setting_of_convertInterval hs
    rw [← setting_convertInterval_of_ne hleft (by decide) (by decide)] at hrow
    exact convertInterval_eq_self hrow hdigits

end Hygie.Migrations
