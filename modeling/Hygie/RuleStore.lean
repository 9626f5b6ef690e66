/-
**Expert rules survive the store.**

A rule is saved as it is written: the groups and the selection of libraries as JSON, the
enumerations under their names, and the legacy library as text.  What is saved is loaded again, as
an equal rule. The groups never look like the conditions of an older rule, since the fields of a
group have other names, and the three states of the selection are kept apart: no selection is
`NULL`, and an empty one is the text of an empty list.

The engine decides about two things.  It refuses values that its columns cannot hold, and it says
how many rows an `UPDATE` counts: SQLite counts the row that it finds, MariaDB only a row that it
changes.

Main definitions:

* `Condition.toJson`, `ConditionGroup.toJson`, `RuleRow.write` — the columns of a rule;
* `ValidRule`, `RuleTable` — rules and tables that are what they should be;
* `saveExpertRule` — the save;
* `RuleTable.Keeps` — the loads return a rule.

Main results:

* `ConditionGroup.ofJson_toJson`, `parseConditionGroups_write` — **the groups are read as they were
  written**;
* `load_write` — so is a row;
* `saveExpertRule_keeps` — **a saved rule is loaded**.
-/

import Hygie.OrderedDict
import Hygie.StoredRules

set_option relaxedAutoImplicit false
set_option autoImplicit false

namespace Hygie

/-! ### Writing -/

/-- The value of a `RuleOperator`. -/
def RuleOperator.name : RuleOperator → String
  | and => "AND"
  | or => "OR"

/-- The value of a `RuleAction`. -/
def RuleAction.name : RuleAction → String
  | queue => "queue"
  | notifyOnly => "notify_only"

/-- A number or a text in JSON. -/
def Scalar.toJson : Scalar → Json
  | num q => .num q
  | str s => .str s

/-- The operator of a condition. -/
def Test.opName : Test → String
  | compare op _ => op.name
  | isIn _ => "in"
  | notIn _ => "not_in"

/-- The value of a condition. -/
def Test.value : Test → Json
  | compare _ value => value.toJson
  | isIn values | notIn values => .arr (values.map Scalar.toJson)

/-- `c.model_dump()`. -/
def Condition.toJson (c : Condition) : Json :=
  .obj [("field", .str c.field.name), ("op", .str c.test.opName), ("value", c.test.value)]

/-- `g.model_dump()`. -/
def ConditionGroup.toJson (g : ConditionGroup) : Json :=
  .obj [("conditions", .arr (g.conditions.map Condition.toJson)),
    ("operator", .str g.operator.name)]

/-- The columns that `save_expert_rule` writes. -/
def RuleRow.write (rule : ExpertRule) (row : RuleRow) : RuleRow :=
  { row with
    name := rule.name
    libraryId := rule.libraryId.map LibraryRef.toString
    libraryIds := rule.libraryIds.map fun ids => .json (.arr (ids.map Json.str))
    conditions := .json (.arr (rule.conditionGroups.map ConditionGroup.toJson))
    operator := rule.operator.name
    action := rule.action.name
    graceDays := rule.graceDays
    enabled := if rule.enabled then 1 else 0
    priority := rule.priority }

/-! ### The table -/

/-- A rule with a group, and a condition in each group. -/
structure ValidRule extends ExpertRule where
  groups_ne_nil : conditionGroups ≠ []
  conditions_ne_nil : ∀ g ∈ conditionGroups, g.conditions ≠ []

/-- The table of the rules: no two rows have one identifier, and the next one is free. -/
structure RuleTable where
  rows : List RuleRow
  nextId : ℤ
  unique : (rows.map fun row => row.id).Nodup
  fresh : ∀ row ∈ rows, row.id < nextId

/-- What depends on the engine. -/
structure RuleEngine where
  /-- The columns can hold the values. -/
  fits : RuleRow → Bool
  /-- The `UPDATE` of one row to another counts. -/
  counts : RuleRow → RuleRow → Bool
  counts_of_ne : ∀ old new, old ≠ new → counts old new = true
  /-- The default of `created_at`. -/
  createdAt : Option String

/-- The row of a new rule. -/
def RuleEngine.newRow (engine : RuleEngine) (rule : ExpertRule) (ruleId : ℤ) : RuleRow :=
  RuleRow.write rule
    { id := ruleId, name := "", conditions := .empty, createdAt := engine.createdAt }

/-- `INSERT INTO expert_rules`. -/
def RuleTable.insert (t : RuleTable) (row : RuleRow) (h : row.id = t.nextId) : RuleTable where
  rows := t.rows ++ [row]
  nextId := t.nextId + 1
  unique := by
    rw [List.map_append, List.map_singleton, List.nodup_append]
    refine ⟨t.unique, List.nodup_singleton _, ?_⟩
    intro other hother id hid
    obtain ⟨old, hold, rfl⟩ := List.mem_map.1 hother
    rw [List.mem_singleton.1 hid, h]
    exact (t.fresh old hold).ne
  fresh := by
    intro old hold
    rcases List.mem_append.1 hold with hold | hold
    · exact (t.fresh old hold).trans (Int.lt_succ _)
    · rw [List.mem_singleton.1 hold, h]
      exact Int.lt_succ _

/-- `UPDATE expert_rules SET ... WHERE id=?`. -/
def RuleTable.update (t : RuleTable) (rule : ExpertRule) (ruleId : ℤ) : RuleTable where
  rows := t.rows.map fun row => if row.id = ruleId then row.write rule else row
  nextId := t.nextId
  unique := by
    have hids : (t.rows.map fun row => if row.id = ruleId then row.write rule else row).map
        (fun row => row.id) = t.rows.map fun row => row.id := by
      rw [List.map_map]
      refine List.map_congr_left fun row _ => ?_
      rw [Function.comp_apply]
      split_ifs <;> rfl
    rw [hids]
    exact t.unique
  fresh := by
    intro new hnew
    obtain ⟨row, hrow, rfl⟩ := List.mem_map.1 hnew
    split_ifs
    · exact t.fresh row hrow
    · exact t.fresh row hrow

/-- What a save ends with: the identifier and the table, `ValueError`, or the exception of the
engine.  An exception leaves the table as it was. -/
inductive Saved
  | saved (ruleId : ℤ) (t : RuleTable)
  | notFound
  | refused

/-- `save_expert_rule`. -/
def saveExpertRule (engine : RuleEngine) (t : RuleTable) (id : Option ℤ) (rule : ExpertRule) :
    Saved :=
  match truthyId id with
  | some ruleId =>
      match t.rows.find? fun row => row.id = ruleId with
      | none => .notFound
      | some row =>
          if engine.fits (row.write rule) then
            if engine.counts row (row.write rule) then .saved ruleId (t.update rule ruleId)
            else .notFound
          else .refused
  | none =>
      if engine.fits (engine.newRow rule t.nextId) then
        .saved t.nextId (t.insert (engine.newRow rule t.nextId) rfl)
      else .refused

/-- The rule as it is loaded: the legacy library is a text. -/
def storedForm (rule : ExpertRule) : ExpertRule :=
  { rule with libraryId := rule.libraryId.map fun ref => .text ref.toString }

/-- The loads return a rule: that by its identifier, and that of all rules (or of the enabled ones)
unless another row raises. -/
structure RuleTable.Keeps (t : RuleTable) (ruleId : ℤ) (rule : ExpertRule) (r : LoadedRule) :
    Prop where
  form : r.toExpertRule = storedForm rule
  ident : r.id = ruleId
  byId : getExpertRuleById ruleId t.rows = .rule r
  all : ∀ enabledOnly, (enabledOnly = true → rule.enabled = true) →
    (∃ other ∈ t.rows, other.id ≠ ruleId ∧ other.load = .raised) ∨
      ∃ rules, getExpertRules enabledOnly t.rows = some rules ∧ r ∈ rules

/-! ### One condition -/

theorem ConditionField.ofName_name (field : ConditionField) :
    ConditionField.ofName field.name = some field := by
  cases field <;> decide

theorem ConditionOp.ofName_name (op : NumericOp) :
    ConditionOp.ofName op.name = some (.numeric op) := by
  cases op <;> decide

theorem RuleOperator.ofName_name (operator : RuleOperator) :
    RuleOperator.ofName operator.name = some operator := by
  cases operator <;> decide

theorem RuleAction.ofName_name (action : RuleAction) :
    RuleAction.ofName action.name = some action := by
  cases action <;> decide

theorem Scalar.ofJson_toJson (v : Scalar) : Scalar.ofJson v.toJson = some v := by
  cases v <;> rfl

/-- A list that is read element by element is the list that was written. -/
theorem mapM_map_eq_some {α β : Type} {f : β → Option α} {g : α → β} {l : List α}
    (h : ∀ a ∈ l, f (g a) = some a) : (l.map g).mapM f = some l := by
  induction l with
  | nil => rfl
  | cons a l ih =>
      rw [List.map_cons, List.mapM_cons, h a (List.mem_cons_self ..),
        ih fun b hb => h b (List.mem_cons_of_mem _ hb)]
      rfl

theorem mapM_ofJson_toJson (values : List Scalar) :
    (values.map Scalar.toJson).mapM Scalar.ofJson = some values :=
  mapM_map_eq_some fun v _ => v.ofJson_toJson

/-- **A condition is read as it was written.** -/
theorem Condition.ofJson_toJson (c : Condition) : Condition.ofJson c.toJson = some c := by
  have hfield : c.toJson.get? "field" = some (.str c.field.name) := rfl
  have hop : c.toJson.get? "op" = some (.str c.test.opName) := rfl
  have hvalue : c.toJson.get? "value" = some c.test.value := rfl
  have hname : ∀ text, (some (Json.str text)).bind Json.asStr = some text := fun _ => rfl
  rw [Condition.ofJson, hfield, hop, hvalue, hname, hname, Option.bind_some, Option.bind_some,
    ConditionField.ofName_name]
  obtain ⟨field, test⟩ := c
  cases test with
  | compare op value =>
      simp only [Test.opName, ConditionOp.ofName_name, Test.value, Option.bind_eq_bind,
        Option.bind_some, Scalar.ofJson_toJson, Option.map_some]
  | isIn values =>
      have hin : ConditionOp.ofName "in" = some .isIn := by decide
      simp only [Test.opName, hin, Test.value, Option.bind_eq_bind, Option.bind_some,
        mapM_ofJson_toJson, Option.map_some]
  | notIn values =>
      have hnotIn : ConditionOp.ofName "not_in" = some .notIn := by decide
      simp only [Test.opName, hnotIn, Test.value, Option.bind_eq_bind, Option.bind_some,
        mapM_ofJson_toJson, Option.map_some]

/-! ### Groups -/

/-- **A group is read as it was written.** -/
theorem ConditionGroup.ofJson_toJson {g : ConditionGroup} (h : g.conditions ≠ []) :
    ConditionGroup.ofJson g.toJson = some g := by
  have hconditions : conditionsOfGroup g.toJson = some g.conditions :=
    mapM_map_eq_some fun c _ => c.ofJson_toJson
  have hoperator : operatorOfGroup g.toJson = some g.operator :=
    RuleOperator.ofName_name g.operator
  obtain ⟨conditions, operator⟩ := g
  obtain ⟨c, cs, rfl⟩ := List.exists_cons_of_ne_nil h
  rw [ConditionGroup.ofJson, hconditions, hoperator]

/-- **A group is never mistaken for a condition of the old format.** -/
theorem not_isFlat_toJson (g : ConditionGroup) : isFlat g.toJson = false := rfl

/-- **The groups of a rule are read as they were written.** -/
theorem parseConditionGroups_write {groups : List ConditionGroup} (hne : groups ≠ [])
    (h : ∀ g ∈ groups, g.conditions ≠ []) (legacyOperator : String) :
    parseConditionGroups legacyOperator (.json (.arr (groups.map ConditionGroup.toJson))) =
      some groups := by
  obtain ⟨g, gs, rfl⟩ := List.exists_cons_of_ne_nil hne
  have hreadings : (g :: gs).filterMap (ConditionGroup.ofJson ∘ ConditionGroup.toJson) =
      g :: gs :=
    (List.filterMap_congr fun g hg => ConditionGroup.ofJson_toJson (h g hg)).trans
      List.filterMap_some
  rw [parseConditionGroups, if_neg (by simp [Json.truthy]), List.map_cons, parseElements,
    not_isFlat_toJson, if_neg Bool.false_ne_true, ← List.map_cons, List.filterMap_map, hreadings]

/-! ### Rows -/

variable {rule : ValidRule} {row : RuleRow} {engine : RuleEngine} {t : RuleTable} {ruleId : ℤ}

/-- The selection of libraries is read as it was written, in each of its three states. -/
theorem loadLibraryIds_write : (row.write rule.toExpertRule).loadLibraryIds =
    some rule.libraryIds := by
  rw [RuleRow.loadLibraryIds, RuleRow.write]
  cases rule.libraryIds with
  | none => rfl
  | some ids =>
      have hids : (ids.map Json.str).mapM Json.asStr = some ids :=
        mapM_map_eq_some fun _ _ => rfl
      simp only [Option.map_some, hids]

/-- The rule of a row that was written. -/
def writtenRule (rule : ExpertRule) (row : RuleRow) : LoadedRule :=
  { storedForm rule with id := row.id, createdAt := row.createdAt }

/-- **A row is loaded as it was written.** -/
theorem load_write : (row.write rule.toExpertRule).load =
    .rule (writtenRule rule.toExpertRule row) := by
  refine load_eq_rule.2 ⟨rule.libraryIds, rule.operator, rule.action, loadLibraryIds_write,
    RuleOperator.ofName_name _, RuleAction.ofName_name _, rule.groups_ne_nil,
    parseConditionGroups_write rule.groups_ne_nil rule.conditions_ne_nil _, ?_⟩
  have henabled : decide ((row.write rule.toExpertRule).enabled ≠ 0) = rule.enabled := by
    rw [RuleRow.write]
    cases rule.enabled <;> rfl
  have hlegacy : (row.write rule.toExpertRule).libraryId.map LibraryRef.text =
      (storedForm rule.toExpertRule).libraryId := by
    rw [RuleRow.write, Option.map_map]
    rfl
  rw [henabled, hlegacy]
  rfl

/-- The loads return a rule whose row is in the table. -/
theorem keeps_of_mem (hmem : row.write rule.toExpertRule ∈ t.rows) :
    t.Keeps row.id rule.toExpertRule (writtenRule rule.toExpertRule row) := by
  constructor
  · rfl
  · rfl
  · have hfind : t.rows.find? (fun old => old.id = row.id) = some (row.write rule.toExpertRule) :=
      OrderedDict.find?_key t.unique hmem
    rw [getExpertRuleById, hfind]
    exact load_write
  · intro enabledOnly henabled
    by_cases hraises : ∃ other ∈ t.rows, other.id ≠ row.id ∧ other.load = .raised
    · exact .inl hraises
    · right
      cases hrules : getExpertRules enabledOnly t.rows with
      | none =>
          obtain ⟨other, hother, hload⟩ := getExpertRules_eq_none hrules
          by_cases hid : other.id = row.id
          · obtain rfl := List.inj_on_of_nodup_map t.unique hother hmem hid
            rw [load_write] at hload
            cases hload
          · exact absurd ⟨other, hother, hid, hload⟩ hraises
      | some rules =>
          refine ⟨rules, rfl, (mem_getExpertRules hrules).2 ⟨_, hmem, fun honly => ?_, load_write⟩⟩
          rw [RuleRow.write, henabled honly, if_pos rfl]

/-! ### Saves -/

variable {id : Option ℤ} {t' : RuleTable}

/-- What is inserted or updated is loaded. -/
theorem keeps_of_saved (h : saveExpertRule engine t id rule.toExpertRule = .saved ruleId t') :
    (ruleId = t.nextId ∨ id = some ruleId) ∧ ∃ r, t'.Keeps ruleId rule.toExpertRule r := by
  rw [saveExpertRule] at h
  cases hid : truthyId id with
  | none =>
      simp only [hid] at h
      split_ifs at h
      cases h
      have hmem : engine.newRow rule.toExpertRule t.nextId ∈
          (t.insert (engine.newRow rule.toExpertRule t.nextId) rfl).rows :=
        List.mem_append_right _ (List.mem_singleton_self _)
      exact ⟨.inl rfl, _, keeps_of_mem hmem⟩
  | some found =>
      simp only [hid] at h
      split at h
      · cases h
      · next row hfind =>
          split_ifs at h
          cases h
          have hrow : row ∈ t.rows := List.mem_of_find?_eq_some hfind
          obtain rfl : row.id = ruleId := by simpa using List.find?_some hfind
          have hmem : row.write rule.toExpertRule ∈ (t.update rule.toExpertRule row.id).rows :=
            List.mem_map.2 ⟨row, hrow, if_pos rfl⟩
          exact ⟨.inr (truthyId_eq_some.1 hid).1, _, keeps_of_mem hmem⟩

/-- `ValueError`: there is no row, or the row is the rule already. -/
theorem keeps_of_notFound (h : saveExpertRule engine t id rule.toExpertRule = .notFound) :
    ∃ ruleId, id = some ruleId ∧
      ((∀ row ∈ t.rows, row.id ≠ ruleId) ∨ ∃ r, t.Keeps ruleId rule.toExpertRule r) := by
  rw [saveExpertRule] at h
  cases hid : truthyId id with
  | none =>
      simp only [hid] at h
      split_ifs at h
  | some ruleId =>
      simp only [hid] at h
      refine ⟨ruleId, (truthyId_eq_some.1 hid).1, ?_⟩
      split at h
      · next hfind =>
          exact .inl fun row hrow heq =>
            List.find?_eq_none.1 hfind row hrow (decide_eq_true heq)
      · next row hfind =>
          split_ifs at h with hfits hcounts
          have hrow : row ∈ t.rows := List.mem_of_find?_eq_some hfind
          obtain rfl : row.id = ruleId := by simpa using List.find?_some hfind
          have hsame : row = row.write rule.toExpertRule := by
            by_contra hne
            exact hcounts (engine.counts_of_ne _ _ hne)
          exact .inr ⟨_, keeps_of_mem (hsame ▸ hrow)⟩

/-- The engine refuses what does not fit. -/
theorem fits_of_refused (h : saveExpertRule engine t id rule.toExpertRule = .refused) :
    engine.fits (engine.newRow rule.toExpertRule t.nextId) = false ∨
      ∃ row ∈ t.rows, engine.fits (row.write rule.toExpertRule) = false := by
  rw [saveExpertRule] at h
  cases hid : truthyId id with
  | none =>
      simp only [hid] at h
      split_ifs at h with hfits
      exact .inl (Bool.eq_false_iff.2 hfits)
  | some ruleId =>
      simp only [hid] at h
      split at h
      · cases h
      · next row hfind =>
          split_ifs at h with hfits
          exact .inr ⟨row, List.mem_of_find?_eq_some hfind, Bool.eq_false_iff.2 hfits⟩

/-- **A saved rule is loaded**: an equal one, up to the form of its legacy library.  `ValueError`
comes with an identifier that no row has, or where nothing had to be changed; and the engine refuses
only what its columns cannot hold. -/
theorem saveExpertRule_keeps (engine : RuleEngine) (t : RuleTable) (id : Option ℤ)
    (rule : ValidRule) :
    match saveExpertRule engine t id rule.toExpertRule with
    | .saved ruleId t' =>
        (ruleId = t.nextId ∨ id = some ruleId) ∧ ∃ r, t'.Keeps ruleId rule.toExpertRule r
    | .notFound => ∃ ruleId, id = some ruleId ∧
        ((∀ row ∈ t.rows, row.id ≠ ruleId) ∨ ∃ r, t.Keeps ruleId rule.toExpertRule r)
    | .refused => engine.fits (engine.newRow rule.toExpertRule t.nextId) = false ∨
        ∃ row ∈ t.rows, engine.fits (row.write rule.toExpertRule) = false := by
  split
  · next ruleId t' hsave => exact keeps_of_saved hsave
  · next hsave => exact keeps_of_notFound hsave
  · next hsave => exact fits_of_refused hsave

/-- The films that nobody has played, in no library. -/
def unplayedRule : ValidRule where
  name := "Never played"
  libraryIds := some []
  conditionGroups := [{ conditions := [⟨.playCount, .compare .eq (.num 0)⟩] }]
  groups_ne_nil := by decide
  conditions_ne_nil := by decide

/-- SQLite counts each row that it finds, and holds every value. -/
def sqliteRules : RuleEngine where
  fits _ := true
  counts _ _ := true
  counts_of_ne _ _ _ := rfl
  createdAt := some "2026-01-01 00:00:00"

def noRules : RuleTable where
  rows := []
  nextId := 1
  unique := List.nodup_nil
  fresh := nofun

/-- A rule is added, and saved again under its identifier. -/
theorem saveExpertRule_keeps_unplayed : ∃ t t' r,
    saveExpertRule sqliteRules noRules none unplayedRule.toExpertRule = .saved 1 t ∧
      saveExpertRule sqliteRules t (some 1) unplayedRule.toExpertRule = .saved 1 t' ∧
        t'.Keeps 1 unplayedRule.toExpertRule r := by
  have hfirst : saveExpertRule sqliteRules noRules none unplayedRule.toExpertRule =
      .saved 1 (noRules.insert (sqliteRules.newRow unplayedRule.toExpertRule 1) rfl) := rfl
  have hagain := saveExpertRule_keeps sqliteRules
    (noRules.insert (sqliteRules.newRow unplayedRule.toExpertRule 1) rfl) (some 1) unplayedRule
  obtain ⟨-, r, hkeeps⟩ := hagain
  exact ⟨_, _, r, hfirst, rfl, hkeeps⟩

end Hygie
