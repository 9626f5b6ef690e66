/-
**Expert rules as they are stored.**

A row of `expert_rules` keeps the groups of a rule and its selection of libraries as JSON.  Loading
a row never trusts that JSON: a group that is no group is left out, and a selection that is no JSON
is taken for none.  The groups share their column with the conditions of older rules, which stood
there without groups; the first element tells which of the two it is.

A column of JSON is what `json.loads` makes of it.

Main definitions:

* `Json`, `JsonText` — values, and columns that hold one;
* `Condition.ofJson`, `ConditionGroup.ofJson`, `parseConditionGroups` — reading the conditions;
* `RuleRow`, `RuleRow.load` — a row, and the rule that it is loaded as;
* `getExpertRules`, `getExpertRuleById` — the loads.

Main results:

* `parseConditionGroups_eq` — **the groups that are loaded are those that can be read**;
* `mem_getExpertRules` — the rules that are loaded.
-/

import Hygie.LegacyAdapter

set_option relaxedAutoImplicit false
set_option autoImplicit false

namespace Hygie

/-! ### JSON -/

/-- A JSON value; an object is a list of its fields. -/
inductive Json
  | null
  | bool (b : Bool)
  | num (q : ℚ)
  | str (s : String)
  | arr (items : List Json)
  | obj (fields : List (String × Json))

/-- Python's truth test. -/
def Json.truthy : Json → Bool
  | null => false
  | bool b => b
  | num q => q ≠ 0
  | str s => s ≠ ""
  | arr items => !items.isEmpty
  | obj fields => !fields.isEmpty

/-- A field of an object; nothing for a value of another kind. -/
def Json.get? : Json → String → Option Json
  | obj fields, key => (fields.find? fun f => f.1 = key).map Prod.snd
  | _, _ => none

/-- A text, in a field that wants one. -/
def Json.asStr : Json → Option String
  | str s => some s
  | _ => none

/-- A text column that holds JSON: the empty text, a text that `json.loads` raises on, or the value
it returns. -/
inductive JsonText
  | empty
  | damaged
  | json (j : Json)

/-! ### The names of the enumerations -/

/-- The value of a `ConditionField`. -/
def ConditionField.name : ConditionField → String
  | daysNotWatched => "days_not_watched"
  | playCount => "play_count"
  | rating => "rating"
  | fileSizeGb => "file_size_gb"
  | addedDaysAgo => "added_days_ago"
  | mediaType => "media_type"
  | seerrUserId => "seerr_user_id"
  | neverWatched => "never_watched"

/-- `ConditionField(name)`; nothing where it raises. -/
def ConditionField.ofName (name : String) : Option ConditionField :=
  [daysNotWatched, playCount, rating, fileSizeGb, addedDaysAgo, mediaType, seerrUserId,
    neverWatched].find? fun field => field.name = name

/-- `RuleOperator(name)`. -/
def RuleOperator.ofName (name : String) : Option RuleOperator :=
  if name = "AND" then some .and else if name = "OR" then some .or else none

/-- `RuleAction(name)`. -/
def RuleAction.ofName (name : String) : Option RuleAction :=
  if name = "queue" then some .queue else if name = "notify_only" then some .notifyOnly else none

/-! ### Reading the conditions -/

/-- A member of the union of numbers and texts. -/
def Scalar.ofJson : Json → Option Scalar
  | .bool b => some (.num (if b then 1 else 0))
  | .num q => some (.num q)
  | .str s => some (.str s)
  | _ => none

/-- `Condition(**c)`; nothing where it raises. -/
def Condition.ofJson (c : Json) : Option Condition := do
  let field ← ((c.get? "field").bind Json.asStr).bind ConditionField.ofName
  let op ← ((c.get? "op").bind Json.asStr).bind ConditionOp.ofName
  let value ← c.get? "value"
  match op, value with
  | .isIn, .arr items => (items.mapM Scalar.ofJson).map fun values => ⟨field, .isIn values⟩
  | .notIn, .arr items => (items.mapM Scalar.ofJson).map fun values => ⟨field, .notIn values⟩
  | .numeric op, value => (Scalar.ofJson value).map fun value => ⟨field, .compare op value⟩
  | _, _ => none

/-- The conditions of a group: none where the field is missing. -/
def conditionsOfGroup (g : Json) : Option (List Condition) :=
  match g.get? "conditions" with
  | none => some []
  | some (.arr conditions) => conditions.mapM Condition.ofJson
  | some _ => none

/-- The operator of a group, `AND` where the field is missing. -/
def operatorOfGroup (g : Json) : Option RuleOperator :=
  match g.get? "operator" with
  | none => some .and
  | some operator => operator.asStr.bind RuleOperator.ofName

/-- `ConditionGroup(conditions=..., operator=...)`, which wants a condition; nothing where it
raises. A value that is no object has no conditions. -/
def ConditionGroup.ofJson (g : Json) : Option ConditionGroup :=
  match conditionsOfGroup g, operatorOfGroup g with
  | some (c :: conditions), some operator => some ⟨c :: conditions, operator⟩
  | _, _ => none

/-- The old format: a list of conditions. -/
def isFlat (first : Json) : Bool := (first.get? "field").isSome

/-- The one group of the old format. -/
def flatGroup (items : List Json) (legacyOperator : String) : Option ConditionGroup :=
  match items.mapM Condition.ofJson, RuleOperator.ofName legacyOperator with
  | some conditions, some operator => some ⟨conditions, operator⟩
  | _, _ => none

/-- `_parse_condition_groups` from `raw[0]` on, which raises for a value that is neither a list nor
a text; the characters of a text are no groups. -/
def parseElements (legacyOperator : String) : Json → Option (List ConditionGroup)
  | .arr (first :: rest) =>
      if isFlat first then some (flatGroup (first :: rest) legacyOperator).toList
      else some ((first :: rest).filterMap ConditionGroup.ofJson)
  | .arr [] | .str _ => some []
  | _ => none

/-- `_parse_condition_groups`; nothing where it raises. -/
def parseConditionGroups (legacyOperator : String) : JsonText → Option (List ConditionGroup)
  | .empty | .damaged => some []
  | .json raw => if !raw.truthy then some [] else parseElements legacyOperator raw

/-! ### Rows -/

/-- A row of `expert_rules`. -/
structure RuleRow where
  id : ℤ
  name : String
  libraryId : Option String := none
  libraryIds : Option JsonText := none
  conditions : JsonText
  operator : String := "AND"
  action : String := "queue"
  graceDays : ℤ := 7
  enabled : ℤ := 1
  priority : ℤ := 0
  createdAt : Option String := none

/-- An `ExpertRule` with the columns that no evaluation reads. -/
structure LoadedRule extends ExpertRule where
  id : ℤ
  createdAt : Option String := none
  deriving DecidableEq, Repr

/-- What the load of a row ends with: an exception, `None`, or a rule. -/
inductive Loaded
  | raised
  | absent
  | rule (r : LoadedRule)
  deriving DecidableEq, Repr

/-- `library_ids` of a row: a text that is no JSON counts as `NULL`, and a value that is no list of
texts raises. -/
def RuleRow.loadLibraryIds (row : RuleRow) : Option (Option (List String)) :=
  match row.libraryIds with
  | none | some .empty | some .damaged => some none
  | some (.json .null) => some none
  | some (.json (.arr ids)) => (ids.mapM Json.asStr).map some
  | some (.json _) => none

/-- The rule of a row. -/
def RuleRow.load (row : RuleRow) : Loaded :=
  match parseConditionGroups row.operator row.conditions with
  | none => .raised
  | some [] => .absent
  | some (group :: groups) =>
      match row.loadLibraryIds, RuleOperator.ofName row.operator, RuleAction.ofName row.action with
      | some libraryIds, some operator, some action =>
          .rule
            { id := row.id, name := row.name
              libraryId := row.libraryId.map LibraryRef.text, libraryIds := libraryIds
              conditionGroups := group :: groups, operator := operator, action := action
              graceDays := row.graceDays, enabled := decide (row.enabled ≠ 0)
              priority := row.priority, createdAt := row.createdAt }
      | _, _, _ => .raised

/-- The loop of `get_expert_rules`; nothing where a row raises. -/
def loadRules : List RuleRow → Option (List LoadedRule)
  | [] => some []
  | row :: rows =>
      match row.load with
      | .raised => none
      | .absent => loadRules rows
      | .rule r => (loadRules rows).map (r :: ·)

/-- `ORDER BY priority ASC, id ASC`. -/
def RuleRow.before (a b : RuleRow) : Bool :=
  a.priority < b.priority || (a.priority = b.priority && a.id ≤ b.id)

/-- `get_expert_rules`. -/
def getExpertRules (enabledOnly : Bool) (rows : List RuleRow) : Option (List LoadedRule) :=
  loadRules ((rows.filter fun row => !enabledOnly || row.enabled = 1).mergeSort RuleRow.before)

/-- `get_expert_rule_by_id`. -/
def getExpertRuleById (ruleId : ℤ) (rows : List RuleRow) : Loaded :=
  match rows.find? fun row => row.id = ruleId with
  | none => .absent
  | some row => row.load

/-! ### What is read -/

/-- The elements of a list of conditions, one by one: a group, or nothing where it cannot be read.
The old format is a single group. -/
def elementReadings (legacyOperator : String) : Json → List (Option ConditionGroup)
  | .arr (first :: rest) =>
      if isFlat first then [flatGroup (first :: rest) legacyOperator]
      else (first :: rest).map ConditionGroup.ofJson
  | _ => []

/-- The elements of a column of conditions. -/
def groupReadings (legacyOperator : String) : JsonText → List (Option ConditionGroup)
  | .json raw => elementReadings legacyOperator raw
  | _ => []

variable {raw : JsonText} {legacyOperator : String} {groups : List ConditionGroup}
  {group : ConditionGroup} {row : RuleRow} {rows : List RuleRow} {r : LoadedRule}

theorem parseElements_eq {raw : Json} (h : parseElements legacyOperator raw = some groups) :
    groups = (elementReadings legacyOperator raw).filterMap id := by
  match raw, h with
  | .str _, h | .arr [], h => exact (Option.some.inj h).symm
  | .arr (first :: rest), h =>
      rw [parseElements] at h
      rw [elementReadings]
      split_ifs at h ⊢ with hflat
      · rw [← Option.some.inj h]
        cases flatGroup (first :: rest) legacyOperator <;> rfl
      · rw [← Option.some.inj h, List.filterMap_map]
        rfl

/-- A falsy value has no elements. -/
theorem elementReadings_of_falsy {raw : Json} (h : raw.truthy = false) :
    elementReadings legacyOperator raw = [] := by
  match raw, h with
  | .null, _ | .bool _, _ | .num _, _ | .str _, _ | .arr [], _ | .obj _, _ => rfl

/-- **The groups that are loaded are those that can be read.** -/
theorem parseConditionGroups_eq (h : parseConditionGroups legacyOperator raw = some groups) :
    groups = (groupReadings legacyOperator raw).filterMap id := by
  cases raw with
  | empty => exact (Option.some.inj h).symm
  | damaged => exact (Option.some.inj h).symm
  | json raw =>
      rw [parseConditionGroups] at h
      rw [groupReadings]
      split_ifs at h with hfalsy
      · rw [elementReadings_of_falsy (by simpa using hfalsy)]
        exact (Option.some.inj h).symm
      · exact parseElements_eq h

/-- Where there are elements the groups are loaded. -/
theorem parseConditionGroups_of_ne_nil (h : groupReadings legacyOperator raw ≠ []) :
    parseConditionGroups legacyOperator raw =
      some ((groupReadings legacyOperator raw).filterMap id) := by
  match raw, h with
  | .json (.arr (first :: rest)), _ =>
      rw [parseConditionGroups, if_neg (by simp [Json.truthy])]
      obtain ⟨groups, hgroups⟩ : ∃ groups,
          parseElements legacyOperator (.arr (first :: rest)) = some groups := by
        rw [parseElements]
        split_ifs
        · exact ⟨_, rfl⟩
        · exact ⟨_, rfl⟩
      rw [hgroups, parseElements_eq hgroups, groupReadings]

/-- A group that is read has a condition. -/
theorem conditions_ne_nil_of_ofJson {g : Json} (h : ConditionGroup.ofJson g = some group) :
    group.conditions ≠ [] := by
  rw [ConditionGroup.ofJson] at h
  split at h
  · cases h
    exact List.cons_ne_nil _ _
  · cases h

theorem conditions_ne_nil_of_flatGroup {first : Json} {rest : List Json}
    (h : flatGroup (first :: rest) legacyOperator = some group) : group.conditions ≠ [] := by
  rw [flatGroup] at h
  split at h
  · next conditions operator hconditions _ =>
      cases h
      rw [List.mapM_cons] at hconditions
      obtain ⟨c, -, hrest⟩ := Option.bind_eq_some_iff.1 hconditions
      obtain ⟨cs, -, hcons⟩ := Option.bind_eq_some_iff.1 hrest
      exact Option.some.inj hcons ▸ List.cons_ne_nil c cs
  · cases h

/-- Every group that is loaded has a condition. -/
theorem conditions_ne_nil (h : some group ∈ groupReadings legacyOperator raw) :
    group.conditions ≠ [] := by
  match raw, h with
  | .json (.arr (first :: rest)), h =>
      rw [groupReadings, elementReadings] at h
      split_ifs at h
      · exact conditions_ne_nil_of_flatGroup (List.mem_singleton.1 h).symm
      · obtain ⟨g, -, hg⟩ := List.mem_map.1 h
        exact conditions_ne_nil_of_ofJson hg

/-! ### The loads -/

/-- **The rule of a row**: its groups, of which there is one, its selection, and its operator and
action, which are known. -/
theorem load_eq_rule : row.load = .rule r ↔
    ∃ libraryIds operator action,
      row.loadLibraryIds = some libraryIds ∧ RuleOperator.ofName row.operator = some operator ∧
      RuleAction.ofName row.action = some action ∧ r.conditionGroups ≠ [] ∧
      parseConditionGroups row.operator row.conditions = some r.conditionGroups ∧
      r =
        { id := row.id, name := row.name
          libraryId := row.libraryId.map LibraryRef.text, libraryIds := libraryIds
          conditionGroups := r.conditionGroups, operator := operator, action := action
          graceDays := row.graceDays, enabled := decide (row.enabled ≠ 0)
          priority := row.priority, createdAt := row.createdAt } := by
  rw [RuleRow.load]
  constructor
  · intro h
    split at h
    · cases h
    · cases h
    · next group groups hgroups =>
        split at h
        · next libraryIds operator action hids hoperator haction =>
            cases h
            exact ⟨_, _, _, hids, hoperator, haction, List.cons_ne_nil _ _, hgroups, rfl⟩
        · cases h
  · rintro ⟨libraryIds, operator, action, hids, hoperator, haction, hne, hgroups, hr⟩
    obtain ⟨group, groups, hcons⟩ := List.exists_cons_of_ne_nil hne
    rw [hgroups, hcons]
    simp only [hids, hoperator, haction]
    rw [hr, hcons]

/-- The loop over the rows raises with one of them. -/
theorem loadRules_eq_none : loadRules rows = none ↔ ∃ row ∈ rows, row.load = .raised := by
  induction rows with
  | nil => simp [loadRules]
  | cons row rows ih =>
      rw [loadRules, List.exists_mem_cons_iff]
      cases hload : row.load with
      | raised => simp
      | absent => simp [ih]
      | rule r => simp [ih]

theorem mem_loadRules {rules : List LoadedRule} (h : loadRules rows = some rules) :
    r ∈ rules ↔ ∃ row ∈ rows, row.load = .rule r := by
  induction rows generalizing rules with
  | nil =>
      cases h
      simp
  | cons row rows ih =>
      rw [loadRules] at h
      rw [List.exists_mem_cons_iff]
      cases hload : row.load with
      | raised =>
          rw [hload] at h
          cases h
      | absent =>
          rw [hload] at h
          rw [ih h]
          simp
      | rule first =>
          rw [hload] at h
          obtain ⟨rest, hrest, rfl⟩ := Option.map_eq_some_iff.1 h
          rw [List.mem_cons, ih hrest, Loaded.rule.injEq, eq_comm]

/-- A load that raises does so at one of the rows. -/
theorem getExpertRules_eq_none {enabledOnly : Bool} (h : getExpertRules enabledOnly rows = none) :
    ∃ row ∈ rows, row.load = .raised := by
  rw [getExpertRules, loadRules_eq_none] at h
  obtain ⟨row, hrow, hload⟩ := h
  exact ⟨row, List.mem_of_mem_filter (List.mem_mergeSort.1 hrow), hload⟩

/-- **The rules that are loaded**: those of the rows that are asked for. -/
theorem mem_getExpertRules {enabledOnly : Bool} {rules : List LoadedRule}
    (h : getExpertRules enabledOnly rows = some rules) :
    r ∈ rules ↔ ∃ row ∈ rows, (enabledOnly = true → row.enabled = 1) ∧ row.load = .rule r := by
  rw [getExpertRules] at h
  rw [mem_loadRules h]
  refine exists_congr fun row => ?_
  rw [List.mem_mergeSort, List.mem_filter, and_assoc]
  cases enabledOnly <;> simp

end Hygie
