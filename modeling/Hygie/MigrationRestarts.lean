/-
**Migrations that are interrupted.**

The application may be stopped at any moment of its migrations, and it starts again with those that
are not recorded.  The conversion of the libraries to rules has a transaction for each rule, so that
the rules of some libraries may be left; a library that has its rule is passed over.  However often
the migrations are interrupted, they lead to the same database.

Main definitions:

* `MigrationConfig.Faithful` — a column keeps what it accepts;
* `MigrationRestarts` — interrupted, started again, interrupted, and so on.

Main results:

* `interrupted_m011`, `interrupted_of_foldlM` — what is left of the conversion;
* `m011_resumable` — **the rules of the libraries are resumed**;
* `keeps_migrations`, `migrations_resumable` — every migration may be started again;
* `runMigrations_of_restarts` — **interrupted migrations lead to the same database**.
-/

import Hygie.MigrationSteps
import Mathlib.Logic.Relation

set_option relaxedAutoImplicit false
set_option autoImplicit false

namespace Hygie.Migrations

open Catalogs Transactions Program

variable {cfg : MigrationConfig} {commits : Bool} {s t d w : Catalog} {table key : String}
  {column : Column}

/-! ### The rules of the libraries -/

/-- A column keeps what it accepts: a name that is the same when it is compared, and the identifiers
of the libraries with the same text. -/
structure MigrationConfig.Faithful (cfg : MigrationConfig) (db : Catalog) : Prop where
  name : ∀ n m, cfg.keepName n = some m → cfg.collate m = cfg.collate n
  library : ∀ libraries, db "libraries" = some libraries → ∀ row ∈ libraries.rows, ∀ v,
    cfg.keepId row.key = some v →
      ∃ a b, v.cast = some a ∧ row.key.value.cast = some b ∧ cfg.collate a = cfg.collate b

/-- What one round of `rulesOfLibraries` does. -/
def migrateLibrary (cfg : MigrationConfig) (row : Row) (db : Catalog) : Option Catalog :=
  match migratedConditions cfg row with
  | none => some db
  | some newConds =>
      (db "expert_rules").bind fun t =>
        if ∀ c ∈ ["name", "library_id"], c ∈ t.names then
          if t.rows.any (isRuleOf cfg row) then some db
          else (enabledOf row).bind fun enabled => insertRule cfg row newConds enabled db
        else none

/-- Every round ends in a transaction of its own. -/
theorem exec_rulesOfLibraries {rows : List Row} :
    (rulesOfLibraries cfg rows).exec commits w w =
      (rows.foldlM (fun db row => migrateLibrary cfg row db) w).bind (markV3.run commits) := by
  induction rows generalizing w with
  | nil => rfl
  | cons row rows ih =>
      rw [List.foldlM_cons, rulesOfLibraries, migrateLibrary]
      cases migratedConditions cfg row with
      | none => exact ih
      | some newConds =>
          simp only [exec]
          cases w "expert_rules" with
          | none => rfl
          | some t =>
              simp only [Option.bind_some]
              split_ifs
              · exact ih
              · cases enabledOf row with
                | none => rfl
                | some enabled =>
                    simp only [exec, Option.bind_some, Option.bind_eq_bind, Option.bind_assoc]
                    exact Option.bind_congr fun changed _ => ih
              · rfl

/-- What is left of the loop: some of its rounds, or all of them with the mark. -/
theorem interrupted_rulesOfLibraries {rows : List Row}
    (h : (rulesOfLibraries cfg rows).Interrupted commits w w t) :
    (∃ some', some' <+: rows ∧ some'.foldlM (fun db row => migrateLibrary cfg row db) w = some t) ∨
      (rulesOfLibraries cfg rows).exec commits w w = some t := by
  have hstart : ∀ {rows}, t = w →
      ∃ some', some' <+: rows ∧ some'.foldlM (fun db row => migrateLibrary cfg row db) w = some t :=
    fun heq => ⟨[], List.nil_prefix, congrArg some heq.symm⟩
  induction rows generalizing w with
  | nil =>
      rcases (OneCommit.write OneCommit.commit).eq_or_exec h with heq | hexec
      · exact .inl (hstart heq)
      · exact .inr hexec
  | cons row rows ih =>
      -- A round that has ended leaves what it has committed, or something of the following ones.
      have hround : ∀ changed, migrateLibrary cfg row w = some changed →
          t = changed ∨ (rulesOfLibraries cfg rows).Interrupted commits changed changed t →
          (∃ some', some' <+: row :: rows ∧
            some'.foldlM (fun db row => migrateLibrary cfg row db) w = some t) ∨
          (rulesOfLibraries cfg (row :: rows)).exec commits w w = some t := by
        intro changed hchanged hleft
        have hfold : ∀ some', (row :: some').foldlM (fun db row => migrateLibrary cfg row db) w =
            some'.foldlM (fun db row => migrateLibrary cfg row db) changed := by
          intro some'
          rw [List.foldlM_cons, hchanged]
          rfl
        rcases hleft with rfl | hrest
        · exact .inl ⟨[row], by simp, hfold []⟩
        · rcases ih hrest (fun heq => ⟨[], List.nil_prefix, congrArg some heq.symm⟩) with
            ⟨some', hinitial, hsome⟩ | hexec
          · exact .inl ⟨row :: some', (List.prefix_cons_inj _).2 hinitial,
              (hfold some').trans hsome⟩
          · rw [exec_rulesOfLibraries] at hexec ⊢
            rw [hfold]
            exact .inr hexec
      rw [rulesOfLibraries] at h
      rw [migrateLibrary] at hround
      cases hconds : migratedConditions cfg row with
      | none =>
          rw [hconds] at h hround
          exact hround w rfl (.inr h)
      | some newConds =>
          rw [hconds] at h hround
          simp only [Interrupted] at h
          cases hrules : w "expert_rules" with
          | none =>
              rw [hrules] at h
              exact .inl (hstart h)
          | some tab =>
              simp only [hrules, Option.bind_some] at h hround
              split_ifs at h hround
              · rcases h with heq | h
                · exact .inl (hstart heq)
                · exact hround w rfl (.inr h)
              · cases henabled : enabledOf row with
                | none =>
                    rw [henabled] at h
                    exact .inl (hstart h)
                | some enabled =>
                    simp only [henabled, Option.bind_some, Interrupted, committed_data] at h hround
                    rcases h with heq | heq | ⟨changed, hchanged, heq | h⟩
                    · exact .inl (hstart heq)
                    · exact .inl (hstart heq)
                    · exact .inl (hstart heq)
                    · exact hround changed hchanged h
              · exact .inl (hstart h)

/-- The rules of some libraries may be left. -/
theorem interrupted_of_foldlM {rows some' : List Row} (hinitial : some' <+: rows)
    (hfold : some'.foldlM (fun db row => migrateLibrary cfg row db) w = some t) :
    (rulesOfLibraries cfg rows).Interrupted commits w w t := by
  induction rows generalizing some' w with
  | nil =>
      obtain rfl := List.prefix_nil.1 hinitial
      exact Option.some.inj hfold ▸ interrupted_self
  | cons row rows ih =>
      cases some' with
      | nil => exact Option.some.inj hfold ▸ interrupted_self
      | cons row' some' =>
          obtain ⟨rfl, hrows⟩ := List.cons_prefix_cons.1 hinitial
          rw [List.foldlM_cons] at hfold
          obtain ⟨changed, hchanged, hrest⟩ := Option.bind_eq_some_iff.1 hfold
          rw [migrateLibrary] at hchanged
          rw [rulesOfLibraries]
          cases hconds : migratedConditions cfg row' with
          | none =>
              rw [hconds] at hchanged
              exact ih hrows (Option.some.inj hchanged ▸ hrest)
          | some newConds =>
              rw [hconds] at hchanged
              obtain ⟨tab, htab, hchanged⟩ := Option.bind_eq_some_iff.1 hchanged
              simp only [Interrupted, htab]
              split_ifs at hchanged ⊢ with hneeds hthere
              · exact .inr (ih hrows (Option.some.inj hchanged ▸ hrest))
              · obtain ⟨enabled, henabled, hinsert⟩ := Option.bind_eq_some_iff.1 hchanged
                simp only [henabled, Interrupted]
                exact .inr (.inr ⟨changed, hinsert, .inr (.inr (ih hrows hrest))⟩)

/-- There is the rule of a library. -/
def HasRule (cfg : MigrationConfig) (row : Row) (db : Catalog) : Prop :=
  ∃ tab, db "expert_rules" = some tab ∧ (∀ c ∈ ["name", "library_id"], c ∈ tab.names) ∧
    tab.rows.any (isRuleOf cfg row) = true

/-- The rule that is inserted is the one of the library. -/
theorem isRuleOf_newRow {row : Row} {tab : Table} {name : String} {libraryId : Value}
    {rest : List (String × Value)} (hname : cfg.collate name = cfg.collate (migratedName row))
    (hlibrary : ∃ a b, libraryId.cast = some a ∧ row.key.value.cast = some b ∧
      cfg.collate a = cfg.collate b) :
    isRuleOf cfg row
      (tab.newRow (("name", .text name) :: ("library_id", libraryId) :: rest)) = true := by
  obtain ⟨a, b, ha, hb, hab⟩ := hlibrary
  rw [isRuleOf, Bool.and_eq_true, newRow_cell (c := "name") rfl,
    newRow_cell (c := "library_id") rfl, ha, hb, Value.cast, Option.map_some, hname]
  exact ⟨decide_eq_true rfl, by simp [hab]⟩

/-- What a round can do: nothing, or the insertion of one rule. -/
theorem migrateLibrary_cases {row : Row} (h : migrateLibrary cfg row s = some t) :
    t = s ∧ (migratedConditions cfg row = none ∨ HasRule cfg row s) ∨
      ∃ tab name libraryId rest, s "expert_rules" = some tab ∧
        (∀ c ∈ ["name", "library_id"], c ∈ tab.names) ∧
        cfg.keepName (migratedName row) = some name ∧ cfg.keepId row.key = some libraryId ∧
        t = Function.update s "expert_rules" (some { tab with
          rows := tab.rows ++
            [tab.newRow (("name", .text name) :: ("library_id", libraryId) :: rest)] }) := by
  rw [migrateLibrary] at h
  cases hconds : migratedConditions cfg row with
  | none =>
      rw [hconds] at h
      exact .inl ⟨(Option.some.inj h).symm, .inl rfl⟩
  | some newConds =>
      rw [hconds] at h
      obtain ⟨tab, htab, h⟩ := Option.bind_eq_some_iff.1 h
      split_ifs at h with hneeds hthere
      · exact .inl ⟨(Option.some.inj h).symm, .inr ⟨tab, htab, hneeds, hthere⟩⟩
      · obtain ⟨enabled, _, hinsert⟩ := Option.bind_eq_some_iff.1 h
        rw [insertRule] at hinsert
        split at hinsert
        · next name libraryId hname hlibrary =>
            obtain ⟨tab', htab', _, rfl⟩ := modify_eq_some_iff.1 hinsert
            obtain rfl := Option.some.inj (htab.symm.trans htab')
            exact .inr ⟨tab, name, libraryId, _, htab, hneeds, hname, hlibrary, rfl⟩
        · cases hinsert

theorem settles_migrateLibrary {rows : List Row}
    (hname : ∀ n m, cfg.keepName n = some m → cfg.collate m = cfg.collate n)
    (hlibrary : ∀ row ∈ rows, ∀ v, cfg.keepId row.key = some v →
      ∃ a b, v.cast = some a ∧ row.key.value.cast = some b ∧ cfg.collate a = cfg.collate b) :
    Settles (migrateLibrary cfg)
      (fun row db => migratedConditions cfg row = none ∨ HasRule cfg row db)
      rows where
  skip row _ db hdone := by
    rw [migrateLibrary]
    rcases hdone with hnone | ⟨tab, htab, hneeds, hthere⟩
    · rw [hnone]
    · cases migratedConditions cfg row with
      | none => rfl
      | some newConds =>
          dsimp only
          rw [htab, Option.bind_some, if_pos hneeds, if_pos hthere]
  does row hrow db db' h := by
    rcases migrateLibrary_cases h with
      ⟨rfl, hdone⟩ | ⟨tab, name, v, rest, htab, hneeds, hn, hv, rfl⟩
    · exact hdone
    · refine .inr ⟨_, Function.update_self .., hneeds, ?_⟩
      rw [List.any_append, Bool.or_eq_true]
      exact .inr (List.any_eq_true.2 ⟨_, List.mem_singleton_self _,
        isRuleOf_newRow (hname _ _ hn) (hlibrary row hrow v hv)⟩)
  keeps row _ other _ db db' hdone h := by
    rcases migrateLibrary_cases h with ⟨rfl, _⟩ | ⟨tab, name, v, rest, htab, hneeds, _, _, rfl⟩
    · exact hdone
    · refine hdone.imp_right fun ⟨tab', htab', _, hthere⟩ => ?_
      obtain rfl := Option.some.inj (htab.symm.trans htab')
      refine ⟨_, Function.update_self .., hneeds, ?_⟩
      rw [List.any_append, hthere, Bool.true_or]

/-- The rounds leave the other tables alone, and there are rules. -/
theorem migrateLibrary_other {row : Row} (h : migrateLibrary cfg row s = some t) {other : String}
    (hne : other ≠ "expert_rules") : t other = s other := by
  rcases migrateLibrary_cases h with ⟨rfl, _⟩ | ⟨tab, name, v, rest, _, _, _, _, rfl⟩
  · rfl
  · exact Function.update_of_ne hne ..

theorem isNone_migrateLibrary {row : Row} (h : migrateLibrary cfg row s = some t) :
    (t "expert_rules").isNone = (s "expert_rules").isNone := by
  rcases migrateLibrary_cases h with ⟨rfl, _⟩ | ⟨tab, name, v, rest, htab, _, _, _, rfl⟩
  · rfl
  · rw [Function.update_self, htab]
    rfl

/-- The database has become one of the third version. -/
def IsV3 (db : Catalog) : Prop := ∃ v, setting "v3_migration_done" db = some (some v)

theorem isV3_of_markV3 (h : markV3.run commits s = some t) : IsV3 t := by
  obtain ⟨left, hleft, hdone⟩ := Option.bind_eq_some_iff.1 h
  obtain rfl : left = t := Option.some.inj hdone
  obtain ⟨tab, _, hset⟩ := setting_modify "v3_migration_done" hleft
  rw [IsV3, hset]
  split_ifs with hthere
  · obtain ⟨row, hrow⟩ := Option.isSome_iff_exists.1 hthere
    exact ⟨row.cell "value", by rw [hrow]; rfl⟩
  · obtain ⟨found, hfound, _⟩ :=
      exists_findKey_upsert (.text "v3_migration_done") "value" (.text "1") tab.rows
    exact ⟨found.cell "value", by rw [hfound]; rfl⟩

theorem run_m011_of_isV3 (h : IsV3 s) :
    (m011LibrariesToExpertRules cfg).run commits s = some s := by
  obtain ⟨v, hv⟩ := h
  rw [run, m011LibrariesToExpertRules, exec_fetchSetting, hv, Option.bind_some,
    if_pos Option.isSome_some]
  rfl

/-- The libraries become rules. -/
structure Promotes (db : Catalog) (libraries : Table) : Prop where
  unmarked : setting "v3_migration_done" db = some none
  there : db "libraries" = some libraries
  rules : (db "expert_rules").isNone = false
  columns : ∀ c ∈ ["name", "conditions", "logic", "seerr_conditions", "enabled"],
    c ∈ libraries.names
  rows : libraries.rows.isEmpty = false

theorem run_m011_of_promotes {libraries : Table} (h : Promotes s libraries) :
    (m011LibrariesToExpertRules cfg).run commits s =
      (libraries.rows.foldlM (fun db row => migrateLibrary cfg row db) s).bind
        (markV3.run commits) := by
  rw [run, m011LibrariesToExpertRules, exec_fetchSetting, h.unmarked, Option.bind_some,
    if_neg (by decide),
    exec, h.there]
  dsimp only
  rw [if_neg (by rw [h.rules]; decide), if_pos h.columns, if_neg (by rw [h.rows]; decide), exec,
    exec_rulesOfLibraries]

theorem Promotes.foldlM {libraries : Table} (h : Promotes s libraries) {rows : List Row}
    (hfold : rows.foldlM (fun db row => migrateLibrary cfg row db) s = some t) :
    Promotes t libraries := by
  refine foldlM_keeps (P := fun db => Promotes db libraries) (fun row _ s t hs hstep => ?_) h hfold
  exact
    { unmarked := by
        rw [setting, migrateLibrary_other hstep (by decide)]
        exact hs.unmarked
      there := (migrateLibrary_other hstep (by decide)).trans hs.there
      rules := (isNone_migrateLibrary hstep).trans hs.rules
      columns := hs.columns
      rows := hs.rows }

/-- What is left of the migration: nothing, all of it, or the rules of some libraries. -/
theorem interrupted_m011 (h : (m011LibrariesToExpertRules cfg).Interrupted commits s s t) :
    t = s ∨ (m011LibrariesToExpertRules cfg).run commits s = some t ∧ IsV3 t ∨
      ∃ libraries some', Promotes s libraries ∧ some' <+: libraries.rows ∧
        some'.foldlM (fun db row => migrateLibrary cfg row db) s = some t := by
  have hmark : markV3.Interrupted commits s s t →
      t = s ∨ markV3.exec commits s s = some t ∧ IsV3 t := by
    intro h
    rcases (OneCommit.write OneCommit.commit).eq_or_exec h with heq | hexec
    · exact .inl heq
    · exact .inr ⟨hexec, isV3_of_markV3 hexec⟩
  rcases interrupted_fetchSetting h with heq | ⟨done, hdone, h⟩
  · exact .inl heq
  cases done with
  | some v => exact .inl h
  | none =>
      rw [run, m011LibrariesToExpertRules, exec_fetchSetting, hdone, Option.bind_some]
      simp only [Option.isSome_none, Bool.false_eq_true, if_false, Interrupted, exec] at h ⊢
      cases hlibraries : s "libraries" with
      | none =>
          rw [hlibraries] at h
          exact (hmark h).imp_right .inl
      | some libraries =>
          simp only [hlibraries] at h ⊢
          split_ifs at h ⊢ with hrules hcolumns hempty
          · exact (hmark h).imp_right .inl
          · rcases h with heq | h
            · exact .inl heq
            · exact .inl h
          · rcases h with heq | h
            · exact .inl heq
            · rcases interrupted_rulesOfLibraries h with ⟨some', hinitial, hfold⟩ | hexec
              · exact .inr (.inr ⟨libraries, some',
                  ⟨hdone, hlibraries, Bool.eq_false_of_not_eq_true hrules, hcolumns,
                    Bool.eq_false_of_not_eq_true hempty⟩, hinitial, hfold⟩)
              · obtain ⟨left, _, hleft⟩ := Option.bind_eq_some_iff.1 (exec_rulesOfLibraries ▸ hexec)
                exact .inr (.inl ⟨hexec, isV3_of_markV3 hleft⟩)
          · exact .inl h

theorem interrupted_m011_of_promotes {libraries : Table} (h : Promotes s libraries)
    (hleft : (rulesOfLibraries cfg libraries.rows).Interrupted commits s s t) :
    (m011LibrariesToExpertRules cfg).Interrupted commits s s t := by
  obtain ⟨settings, hsettings, hdone⟩ := Option.map_eq_some_iff.1 h.unmarked
  simp only [m011LibrariesToExpertRules, fetchSetting, Interrupted, hsettings, hdone,
    Option.isSome_none,
    Bool.false_eq_true, if_false, h.there, h.rules, if_pos h.columns, h.rows]
  exact .inr hleft

/-- **The rules of the libraries are resumed**: a library that has its rule is passed over. -/
theorem m011_resumable : (m011LibrariesToExpertRules cfg).ResumableFrom commits cfg.Faithful := by
  intro s t hfaithful h
  rcases interrupted_m011 h with rfl | ⟨hrun, hmarked⟩ | ⟨libraries, some', hs, hinitial, hfold⟩
  · rfl
  · rw [hrun, run_m011_of_isV3 hmarked]
  · have hsettles := settles_migrateLibrary hfaithful.name (hfaithful.library libraries hs.there)
    rw [run_m011_of_promotes hs, run_m011_of_promotes (hs.foldlM hfold),
      hsettles.foldlM_resume hinitial hfold]

/-! ### All migrations -/

theorem MigrationConfig.Faithful.congr (h : cfg.Faithful s) (heq : t "libraries" = s "libraries") :
    cfg.Faithful t :=
  ⟨h.name, heq ▸ h.library⟩

/-- The property is one of a single table. -/
def Watches (watched : String) (P : Catalog → Prop) : Prop :=
  ∀ s t : Catalog, P s → t watched = s watched → P t

theorem watches_faithful : Watches "libraries" cfg.Faithful := fun _ _ hs heq => hs.congr heq

section Keeps

variable {P : Catalog → Prop} {watched : String}

/-- A statement on another table. -/
theorem Watches.modify {needs : List String} {change : Table → List Row} (hP : Watches watched P)
    (hne : watched ≠ table) :
    ∀ s t, P s → Catalogs.modify table needs change s = some t → P t :=
  fun s t hs h => hP s t hs (modify_other h hne)

theorem keeps_ensureColumn (hP : Watches watched P) (hne : watched ≠ table) :
    (ensureColumn table column).Keeps P := by
  refine .read fun db => ?_
  split_ifs
  · exact .done
  · exact .write (fun s t hs h => hP s t hs (addColumn_other h hne)) (.commit .done)

theorem keeps_ensureColumns {columns : List (String × Column)} (hP : Watches watched P)
    (hne : ∀ column ∈ columns, watched ≠ column.1) :
    (ensureColumns columns).Keeps P := by
  induction columns with
  | nil => exact .commit .done
  | cons column columns ih =>
      obtain ⟨hcolumn, hcolumns⟩ := List.forall_mem_cons.1 hne
      refine .read fun db => ?_
      split_ifs
      · exact ih hcolumns
      · exact .write (fun s t hs h => hP s t hs (addColumn_other h hcolumn)) (ih hcolumns)

theorem keeps_ensureTable {tab : Table} {needs : List String} (hP : Watches watched P)
    (hne : watched ≠ table) :
    (ensureTable table tab needs).Keeps P := by
  refine .read fun db => ?_
  split_ifs
  · exact .done
  · exact .write (fun s t hs h => hP s t hs (createTable_other h hne)) (.commit .done)

theorem keeps_fetchSetting {next : Option Value → Program Catalog} (h : ∀ v, (next v).Keeps P) :
    (fetchSetting key next).Keeps P := by
  refine .read fun db => ?_
  split
  · exact .fail
  · exact h _

theorem keeps_m006 (hP : Watches watched P) (hne : watched ≠ "expert_rules") :
    (m006FixMariadbExpertRulesSchema cfg).Keeps P := by
  have hadd : ∀ c s t, P s → addColumn "expert_rules" c s = some t → P t :=
    fun c s t hs h => hP s t hs (addColumn_other h hne)
  refine .read fun db => ?_
  dsimp only
  split_ifs
  · exact .commit .done
  · exact .write (hadd _) (.commit .done)
  · exact .write (hadd _) (.commit .done)
  · exact .write (hadd _) (.write (hadd _) (.commit .done))

theorem keeps_m007 (hP : Watches watched P) (hne : watched ≠ "notifications") :
    (m007MigrateNotificationColumns cfg).Keeps P := by
  have hinsert : ∀ (pairs : Catalog → Option (List (Key × String))) s t, P s →
      some (((pairs s).bind fun pairs => insertNotifications cfg pairs s).getD s) = some t →
      P t := by
    intro pairs s t hs h
    cases hpairs : pairs s with
    | none => exact Option.some.inj (hpairs ▸ h) ▸ hs
    | some pairs' =>
        rw [hpairs] at h
        exact hP s t hs (tryInsert_other h hne)
  refine keeps_writes (fun flag _ => hinsert fun db => flaggedPairs db flag) (.read fun db => ?_)
  exact keeps_writes (fun pair _ => hinsert fun _ => some [pair]) (.commit .done)

theorem keeps_m009 (hupsert : ∀ v s t, P s → upsertSetting "media_servers" v s = some t → P t) :
    (m009MigrateLegacyEmbyToMediaServers cfg).Keeps P := by
  refine keeps_fetchSetting fun ms => ?_
  split_ifs
  · exact .done
  · refine .reconnect (keeps_fetchSetting fun url => ?_)
    split
    · exact .done
    · refine .reconnect (keeps_fetchSetting fun apiKey => keeps_fetchSetting fun ext =>
        keeps_fetchSetting fun type => ?_)
      exact .reconnect (.write (hupsert _) (.commit .done))

theorem keeps_m010
    (hbackfill : ∀ c v s t, P s → backfillLibraries cfg c v s = some t → P t)
    (hdelete : ∀ key ∈ singleServerKeys, ∀ s t, P s → deleteSetting key s = some t → P t) :
    (m010V2ToV3Data cfg).Keeps P := by
  have hcolumn : ∀ {c : String} {v : Value} {next : Program Catalog}, next.Keeps P →
      (Program.read fun db => if c ∈ tableColumns db "libraries" then
        .write .data (backfillLibraries cfg c v) next else next).Keeps P := by
    intro c v next hnext
    refine .read fun db => ?_
    split_ifs
    · exact .write (hbackfill c v) hnext
    · exact hnext
  refine hcolumn (hcolumn (keeps_fetchSetting fun ms => ?_))
  split_ifs
  · exact keeps_writes hdelete (.commit .done)
  · exact .commit .done

theorem keeps_rulesOfLibraries {rows : List Row} (hP : Watches watched P)
    (hne : watched ≠ "expert_rules") (hmark : markV3.Keeps P) :
    (rulesOfLibraries cfg rows).Keeps P := by
  induction rows with
  | nil => exact hmark
  | cons row rows ih =>
      rw [rulesOfLibraries]
      split
      · exact ih
      · refine .read fun db => ?_
        split
        · exact .fail
        · split_ifs
          · exact .reconnect ih
          · split
            · exact .fail
            · refine .write (fun s t hs h => ?_) (.commit (.reconnect ih))
              rw [insertRule] at h
              split at h
              · exact hP.modify hne s t hs h
              · cases h
          · exact .fail

theorem keeps_m011 (hP : Watches watched P) (hne : watched ≠ "expert_rules")
    (hmark : markV3.Keeps P) :
    (m011LibrariesToExpertRules cfg).Keeps P := by
  refine keeps_fetchSetting fun ms => ?_
  split_ifs
  · exact .done
  · refine .read fun db => ?_
    split
    · exact hmark
    · split_ifs
      · exact hmark
      · exact .reconnect .done
      · exact .reconnect (keeps_rulesOfLibraries hP hne hmark)
      · exact .fail

theorem keeps_hoursToMinutes {l : List (String × String)} (hP : Watches watched P)
    (hne : watched ≠ "settings") :
    (hoursToMinutes l).Keeps P := by
  induction l with
  | nil => exact .commit .done
  | cons keys l ih =>
      refine keeps_fetchSetting fun row => ?_
      split_ifs
      · refine keeps_fetchSetting fun existing => ?_
        split_ifs
        · exact .write (hP.modify hne) ih
        · split
          · exact .fail
          · exact .write (hP.modify hne) (.write (hP.modify hne) ih)
      · exact ih

theorem keeps_m013 (hP : Watches watched P) (hne : watched ≠ "logs") :
    (m013PurgeVerboseScanLogs cfg).Keeps P := by
  refine .read fun db => .write (hP.modify hne) ?_
  split_ifs
  · exact .commit .done
  · exact .done

end Keeps

/-- The keys of the libraries stay. -/
theorem faithful_backfillLibraries {c : String} {v : Value} (hs : cfg.Faithful s)
    (h : backfillLibraries cfg c v s = some t) : cfg.Faithful t := by
  obtain ⟨tab, htab, _, rfl⟩ := modify_eq_some_iff.1 h
  refine ⟨hs.name, fun libraries hlibraries row hrow => ?_⟩
  rw [Function.update_self] at hlibraries
  obtain rfl := Option.some.inj hlibraries
  obtain ⟨old, hold, rfl⟩ := List.mem_map.1 hrow
  have hkey : (fillBlank cfg.blank c v old).key = old.key := by
    rw [fillBlank]
    split_ifs <;> rfl
  rw [hkey]
  exact hs.library tab htab old hold

theorem byDialect_cases {α : Type} {Q : α → Prop} {mariadb sqlite : α} (hmariadb : Q mariadb)
    (hsqlite : Q sqlite) : Q (cfg.byDialect mariadb sqlite) := by
  rw [MigrationConfig.byDialect]
  split_ifs
  · exact hmariadb
  · exact hsqlite

theorem keeps_migrations : ∀ stage ∈ migrationStages cfg, stage.program.Keeps cfg.Faithful := by
  have hP : Watches "libraries" cfg.Faithful := watches_faithful
  have hmark : markV3.Keeps cfg.Faithful := .write (hP.modify (by decide)) (.commit .done)
  rw [migrationStages]
  simp only [List.forall_mem_cons, List.not_mem_nil, false_imp_iff, implies_true, and_true]
  exact ⟨.done, keeps_ensureColumn hP (by decide), keeps_ensureColumn hP (by decide),
    byDialect_cases (keeps_ensureTable hP (by decide)) (keeps_ensureTable hP (by decide)),
    .write (fun s t => faithful_backfillLibraries) (.commit .done), keeps_m006 hP (by decide),
    keeps_m007 hP (by decide), keeps_ensureColumn hP (by decide),
    keeps_m009 fun _ => hP.modify (by decide),
    keeps_m010 (fun _ _ _ _ => faithful_backfillLibraries) fun _ _ => hP.modify (by decide),
    keeps_m011 hP (by decide) hmark, keeps_hoursToMinutes hP (by decide),
    keeps_m013 hP (by decide), keeps_ensureColumn hP (by decide),
    keeps_ensureColumns hP (by simp), keeps_ensureColumn hP (by decide),
    byDialect_cases (keeps_ensureTable hP (by decide)) (keeps_ensureTable hP (by decide))⟩

theorem migrations_resumable :
    ∀ stage ∈ migrationStages cfg, stage.program.ResumableFrom commits cfg.Faithful := by
  rw [migrationStages]
  simp only [List.forall_mem_cons, List.not_mem_nil, false_imp_iff, implies_true, and_true]
  have m001 : m001NoOp.Resumable commits := Atomic.resumable (.oneCommit .done) fun _ _ _ => rfl
  exact ⟨m001.resumableFrom, ensureColumn_resumable.resumableFrom,
    ensureColumn_resumable.resumableFrom,
    (byDialect_cases ensureTable_resumable ensureTable_resumable).resumableFrom,
    m005_resumable.resumableFrom, m006_resumable.resumableFrom, m007_resumable.resumableFrom,
    ensureColumn_resumable.resumableFrom, m009_resumable.resumableFrom,
    m010_resumable.resumableFrom, m011_resumable, m012_resumable.resumableFrom,
    m013_resumable.resumableFrom,
    ensureColumn_resumable.resumableFrom, ensureColumns_resumable.resumableFrom,
    ensureColumn_resumable.resumableFrom,
    (byDialect_cases ensureTable_resumable ensureTable_resumable).resumableFrom⟩

/-- Interrupted, started again, interrupted, and so on. -/
def MigrationRestarts (cfg : MigrationConfig) (ddlCommits : Bool) :
    MigratedDb → MigratedDb → Prop :=
  Relation.ReflTransGen (InterruptedMigrations cfg ddlCommits)

/-- **Interrupted migrations lead to the same database**, however often and wherever they are
interrupted: the same tables with the same columns and rows, or the same failure. -/
theorem runMigrations_of_restarts {db left : MigratedDb} (hfaithful : cfg.Faithful db.catalog)
    (h : MigrationRestarts cfg commits db left) :
    runMigrations cfg commits left = runMigrations cfg commits db := by
  have hrestarts : cfg.Faithful left.catalog ∧
      runMigrations cfg commits left = runMigrations cfg commits db := by
    induction h with
    | refl => exact ⟨hfaithful, rfl⟩
    | tail _ hstep ih =>
        obtain ⟨hkept, hsame⟩ := ih
        rcases hstep with rfl | ⟨t, hleft, rfl⟩
        · exact ⟨hkept, hsame⟩
        · refine ⟨keeps_of_interruptedStages keeps_migrations hkept hleft, ?_⟩
          rw [← hsame, runMigrations, runMigrations]
          refine congrArg (Option.map _) ?_
          exact runStages_of_interrupted keeps_migrations migrations_resumable hkept hleft
  exact hrestarts.2

/-- A runtime without a key, in which every library has one condition. -/
def plainConfig : MigrationConfig where
  mariadb := false
  hasKey := false
  loadThresholds _ := none
  loadConditions s :=
    some (if s = "[]" then [] else [some { field := .playCount, op := .eq, value := 0 }])
  loadSeerr _ := some []
  dumpConditions _ := "[]"

/-- A table of texts. -/
def textTable (names : List String) (rows : List (String × List (String × Value))) : Table where
  columns := names.map fun c => { name := c, type := "TEXT" }
  rows := rows.map fun row => { key := .text row.1, cell := fun c => (row.2.lookup c).getD .null }

/-- Two libraries. -/
def films : Table :=
  textTable ["name", "conditions", "logic", "seerr_conditions", "enabled"]
    [("a", [("name", .text "Films"), ("conditions", .text "[1]"), ("enabled", .int 1)]),
      ("b", [("name", .text "Concerts"), ("conditions", .text "[1]"), ("enabled", .int 1)])]

/-- A database with them and without rules. -/
def withoutRules : Catalog
  | "settings" => some (textTable ["value"] [])
  | "libraries" => some films
  | "expert_rules" => some (textTable ruleColumns [])
  | "logs" => some (textTable ["message"] [])
  | "media_queue" => some (textTable [] [])
  | "job_history" => some (textTable [] [])
  | "seerr_user_rules" => some (textTable [] [])
  | _ => none

/-- The same one with the rule of the first library. -/
def withFirstRule : Catalog :=
  ((films.rows.take 1).foldlM (fun db row => migrateLibrary plainConfig row db) withoutRules).getD
    withoutRules

/-- The first ten migrations. -/
def tenMigrations : List (String × String) :=
  ((migrationStages plainConfig).take 10).map fun stage => (stage.id, stage.note)

theorem runMigrations_of_restarts_firstRule :
    withFirstRule "expert_rules" ≠ withoutRules "expert_rules" ∧
      (runMigrations plainConfig false ⟨withoutRules, some tenMigrations⟩).isSome = true ∧
        runMigrations plainConfig false ⟨withFirstRule, some tenMigrations⟩ =
          runMigrations plainConfig false ⟨withoutRules, some tenMigrations⟩ := by
  have hfirst : (films.rows.take 1).foldlM (fun db row => migrateLibrary plainConfig row db)
      withoutRules = some withFirstRule := by
    have hsome : ((films.rows.take 1).foldlM (fun db row => migrateLibrary plainConfig row db)
        withoutRules).isSome = true := by decide +kernel
    rw [withFirstRule, ← Option.some_get hsome]
    rfl
  have hpromotes : Promotes withoutRules films := ⟨by decide +kernel, rfl, rfl, by decide, rfl⟩
  have hleft : InterruptedStages false (migrationStages plainConfig) (withoutRules, tenMigrations)
      (withFirstRule, tenMigrations) := by
    refine interruptedStages_append ((migrationStages plainConfig).take 10) (by decide) ?_
    rw [InterruptedStages, if_neg (by decide)]
    have hinitial : films.rows.take 1 <+: films.rows := List.take_prefix 1 films.rows
    exact .inl ⟨rfl, interrupted_m011_of_promotes hpromotes (interrupted_of_foldlM hinitial hfirst)⟩
  refine ⟨?_, by decide +kernel, runMigrations_of_restarts ⟨?_, ?_⟩
    (.single (.inr ⟨(withFirstRule, tenMigrations), hleft, rfl⟩))⟩
  · intro heq
    have hrows := congrArg (fun tab => tab.map fun tab => tab.rows.length) heq
    revert hrows
    decide +kernel
  · rintro n m ⟨⟩
    rfl
  · rintro libraries ⟨⟩ row hrow v ⟨⟩
    simp only [films, textTable, List.map_cons, List.map_nil, List.mem_cons, List.not_mem_nil,
      or_false] at hrow
    rcases hrow with rfl | rfl <;> exact ⟨_, _, rfl, rfl, rfl⟩

end Hygie.Migrations
