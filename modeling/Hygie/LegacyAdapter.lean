/-
**The adapter of the old conditions.**

The conditions of a library are stored as they were written: a field, an operator and a number, the
first two of which may be any text.  `_evaluate_conditions` turns each into a group of an expert
rule and evaluates the rule.  A condition that is no group (an unknown field, or an operator that a
number cannot be compared by) ends the evaluation under `AND` and is passed over under `OR`.  An
item has no value for a date that is missing.

Beside the adapter stands what the conditions meant before there were expert rules, condition by
condition.  The two are the same function.

Main definitions:

* `RawCondition`, `ConditionOp` — the conditions as they are stored;
* `RawCondition.toGroup`, `conditionGroups`, `evaluateRawConditions` — the adapter;
* `RawCondition.holds`, `legacyConditionsHold` — the old meaning.

Main results:

* `evaluateGroup_toGroup` — **a group says what its condition says**;
* `evaluateRawConditions_eq` — **the adapter keeps the old meaning**;
* `evaluateRawConditions_raw` — the conditions that are well formed.
-/

import Hygie.LegacyConditions

set_option relaxedAutoImplicit false
set_option autoImplicit false

namespace Hygie

/-! ### The conditions as they are stored -/

/-- A condition of a library, as its dictionary gives it. -/
structure RawCondition where
  field : String
  op : String := "gt"
  value : ℚ := 0
  deriving DecidableEq, Repr

/-- `ConditionOp`. -/
inductive ConditionOp
  | numeric (op : NumericOp)
  | isIn
  | notIn
  deriving DecidableEq, Repr

/-- The name of a numeric operator. -/
def NumericOp.name : NumericOp → String
  | gt => "gt"
  | lt => "lt"
  | gte => "gte"
  | lte => "lte"
  | eq => "eq"

/-- `ConditionOp(op)`; nothing where it raises. -/
def ConditionOp.ofName (op : String) : Option ConditionOp :=
  if op = "gt" then some (.numeric .gt)
  else if op = "lt" then some (.numeric .lt)
  else if op = "gte" then some (.numeric .gte)
  else if op = "lte" then some (.numeric .lte)
  else if op = "eq" then some (.numeric .eq)
  else if op = "in" then some .isIn
  else if op = "not_in" then some .notIn
  else none

/-! ### The adapter -/

/-- `Condition(field=..., op=ConditionOp(op), value=value)` with a number: the validator refuses the
operators that want a list. -/
def buildCondition (field : ConditionField) (op : String) (value : ℚ) : Option Condition :=
  match ConditionOp.ofName op with
  | some (.numeric op) => some { field := field, test := .compare op (.num value) }
  | _ => none

/-- `_legacy_condition_to_group`. -/
def RawCondition.toGroup (c : RawCondition) : Option ConditionGroup :=
  if c.field = "days_since_added" then
    (buildCondition .addedDaysAgo c.op c.value).map fun condition => { conditions := [condition] }
  else if c.field = "play_count" then
    (buildCondition .playCount c.op c.value).map fun condition => { conditions := [condition] }
  else if c.field = "never_watched" then
    some
      { conditions :=
          [{ field := .neverWatched, test := .compare .eq (.num (if c.value ≠ 0 then 1 else 0)) }] }
  else if c.field = "days_not_watched" then
    (buildCondition .daysNotWatched c.op c.value).map fun condition =>
      { operator := .or
        conditions := [{ field := .neverWatched, test := .compare .eq (.num 1) }, condition] }
  else none

/-- The loop over the conditions; nothing where it returns `False` at once. -/
def conditionGroups (logic : String) : List RawCondition → Option (List ConditionGroup)
  | [] => some []
  | c :: cs =>
      match c.toGroup with
      | none => if logic ≠ "OR" then none else conditionGroups logic cs
      | some group => (conditionGroups logic cs).map (group :: ·)

/-- `_evaluate_conditions`. -/
def evaluateRawConditions (now : Instant) (conditions : List RawCondition) (logic : String)
    (addedDate lastPlayed : Option Instant) (playCount : ℤ) (neverWatched : Bool) : Bool :=
  if conditions.isEmpty then false
  else
    match conditionGroups logic conditions with
    | none => false
    | some groups =>
        if groups.isEmpty then false
        else
          evaluateRule
            { name := "__library_conditions__", conditionGroups := groups
              operator := if logic = "OR" then .or else .and }
            (legacyItem now addedDate lastPlayed playCount neverWatched)

/-! ### The old meaning -/

/-- The comparisons. -/
def NumericOp.compares : NumericOp → ℚ → ℚ → Bool
  | gt, a, b => a > b
  | lt, a, b => a < b
  | gte, a, b => a ≥ b
  | lte, a, b => a ≤ b
  | eq, a, b => a = b

/-- The operators of the old conditions. -/
def legacyOp (op : String) : Option NumericOp :=
  [NumericOp.gt, .gte, .lt, .lte, .eq].find? (·.name = op)

/-- What a condition says of an item. -/
def RawCondition.holds (now : Instant) (addedDate lastPlayed : Option Instant) (playCount : ℤ)
    (neverWatched : Bool) (c : RawCondition) : Bool :=
  if c.field = "days_since_added" then
    match legacyOp c.op, addedDate with
    | some op, some added => op.compares (daysBetween now added) c.value
    | _, _ => false
  else if c.field = "play_count" then
    match legacyOp c.op with
    | some op => op.compares playCount c.value
    | none => false
  else if c.field = "never_watched" then neverWatched == decide (c.value ≠ 0)
  else if c.field = "days_not_watched" then
    match legacyOp c.op with
    | none => false
    | some op =>
        if neverWatched then true
        else
          match lastPlayed with
          | none => false
          | some played => op.compares (daysBetween now played) c.value
  else false

/-- What the conditions of a library say of an item. -/
def legacyConditionsHold (now : Instant) (conditions : List RawCondition) (logic : String)
    (addedDate lastPlayed : Option Instant) (playCount : ℤ) (neverWatched : Bool) : Bool :=
  if conditions = [] then false
  else if logic = "OR" then
    conditions.any (·.holds now addedDate lastPlayed playCount neverWatched)
  else conditions.all (·.holds now addedDate lastPlayed playCount neverWatched)

/-! ### One condition -/

section Condition

variable {now : Instant} {addedDate lastPlayed : Option Instant} {playCount : ℤ}
  {neverWatched : Bool} {c : RawCondition}

/-- The engine compares numbers as the old conditions did. -/
theorem NumericOp.holds_num (op : NumericOp) (a b : ℚ) :
    op.holds (.num a) (.num b) = op.compares a b := by
  cases op with
  | eq => simp [NumericOp.holds, NumericOp.compares]
  | gt => rfl
  | lt => rfl
  | gte => rfl
  | lte => rfl

/-- The names of the numeric operators are the old operators. -/
theorem buildCondition_eq (field : ConditionField) (op : String) (value : ℚ) :
    buildCondition field op value =
      (legacyOp op).map fun op => { field := field, test := .compare op (.num value) } := by
  by_cases hknown : op ∈ ["gt", "lt", "gte", "lte", "eq", "in", "not_in"]
  · -- one name after another
    simp only [List.mem_cons, List.not_mem_nil, or_false] at hknown
    rcases hknown with rfl | rfl | rfl | rfl | rfl | rfl | rfl <;> rfl
  · simp only [List.mem_cons, List.not_mem_nil, or_false, not_or] at hknown
    obtain ⟨hgt, hlt, hgte, hlte, heq, hin, hnotIn⟩ := hknown
    have hunknown : ConditionOp.ofName op = none := by
      simp [ConditionOp.ofName, hgt, hlt, hgte, hlte, heq, hin, hnotIn]
    have hlegacy : legacyOp op = none := by
      simp [legacyOp, NumericOp.name, Ne.symm hgt, Ne.symm hlt, Ne.symm hgte, Ne.symm hlte,
        Ne.symm heq]
    rw [buildCondition, hunknown, hlegacy]
    rfl

/-- What the condition on a field says of an item that has a value there, or none. -/
theorem evaluateGroup_single {field : ConditionField} {op : NumericOp} {value : ℚ}
    {item : ItemData} :
    evaluateGroup { conditions := [{ field := field, test := .compare op (.num value) }] } item =
      (item field).any fun raw => op.holds raw (.num value) := by
  simp only [evaluateGroup, List.all_cons, List.all_nil, Bool.and_true, evaluateCondition]
  cases item field <;> rfl

/-- **A group says what its condition says**, and a condition without a group is false. -/
theorem evaluateGroup_toGroup :
    (c.toGroup.any fun group =>
        evaluateGroup group (legacyItem now addedDate lastPlayed playCount neverWatched)) =
      c.holds now addedDate lastPlayed playCount neverWatched := by
  simp only [RawCondition.toGroup, RawCondition.holds, buildCondition_eq]
  by_cases hadded : c.field = "days_since_added"
  · rw [if_pos hadded, if_pos hadded]
    cases legacyOp c.op with
    | none => rfl
    | some op =>
        cases addedDate with
        | none => exact evaluateGroup_single
        | some added => exact evaluateGroup_single.trans (op.holds_num _ _)
  rw [if_neg hadded, if_neg hadded]
  by_cases hcount : c.field = "play_count"
  · rw [if_pos hcount, if_pos hcount]
    cases legacyOp c.op with
    | none => rfl
    | some op => exact evaluateGroup_single.trans (op.holds_num _ _)
  rw [if_neg hcount, if_neg hcount]
  by_cases hnever : c.field = "never_watched"
  · rw [if_pos hnever, if_pos hnever]
    refine evaluateGroup_single.trans ?_
    by_cases hvalue : c.value = 0 <;> cases neverWatched <;>
      simp [legacyItem, NumericOp.holds_eq, hvalue]
  rw [if_neg hnever, if_neg hnever]
  by_cases hwatched : c.field = "days_not_watched"
  · rw [if_pos hwatched, if_pos hwatched]
    cases legacyOp c.op with
    | none => rfl
    | some op =>
        -- the group asks first whether the item has never been watched
        have hfirst : evaluateCondition { field := .neverWatched, test := .compare .eq (.num 1) }
            (legacyItem now addedDate lastPlayed playCount neverWatched) = neverWatched := by
          cases neverWatched <;>
            simp [evaluateCondition, legacyItem, NumericOp.holds_eq]
        simp only [Option.map_some, Option.any_some, evaluateGroup, List.any_cons, List.any_nil,
          Bool.or_false, hfirst]
        cases neverWatched with
        | true => rfl
        | false =>
            cases lastPlayed with
            | none => rfl
            | some played => exact op.holds_num _ _
  · rw [if_neg hwatched, if_neg hwatched]
    rfl

theorem toGroup_nonempty {group : ConditionGroup} (h : c.toGroup = some group) :
    group.conditions ≠ [] := by
  have hmap : ∀ (built : Option Condition) (make : Condition → ConditionGroup),
      (∀ condition, (make condition).conditions ≠ []) → built.map make = some group →
        group.conditions ≠ [] := by
    intro built make hmake hbuilt
    obtain ⟨condition, -, rfl⟩ := Option.map_eq_some_iff.1 hbuilt
    exact hmake condition
  rw [RawCondition.toGroup] at h
  by_cases hadded : c.field = "days_since_added"
  · rw [if_pos hadded] at h
    exact hmap _ _ (fun _ => List.cons_ne_nil _ _) h
  rw [if_neg hadded] at h
  by_cases hcount : c.field = "play_count"
  · rw [if_pos hcount] at h
    exact hmap _ _ (fun _ => List.cons_ne_nil _ _) h
  rw [if_neg hcount] at h
  by_cases hnever : c.field = "never_watched"
  · rw [if_pos hnever] at h
    rw [← Option.some.inj h]
    exact List.cons_ne_nil _ _
  rw [if_neg hnever] at h
  by_cases hwatched : c.field = "days_not_watched"
  · rw [if_pos hwatched] at h
    exact hmap _ _ (fun _ => List.cons_ne_nil _ _) h
  · rw [if_neg hwatched] at h
    cases h

end Condition

/-! ### All of them -/

section Conditions

variable {now : Instant} {addedDate lastPlayed : Option Instant} {playCount : ℤ}
  {neverWatched : Bool} {conditions : List RawCondition} {logic : String}

/-- Under `OR` the loop keeps the groups that there are. -/
theorem conditionGroups_or :
    conditionGroups "OR" conditions = some (conditions.filterMap (·.toGroup)) := by
  induction conditions with
  | nil => rfl
  | cons c cs ih =>
      rw [conditionGroups, List.filterMap_cons]
      cases c.toGroup with
      | none => simp only [ne_eq, not_true_eq_false, if_false, ih]
      | some group => simp only [ih, Option.map_some]

/-- Under `AND` there is a group for every condition, or the loop ends. -/
theorem conditionGroups_and (hlogic : logic ≠ "OR") :
    conditionGroups logic conditions = conditions.mapM (·.toGroup) := by
  induction conditions with
  | nil => rfl
  | cons c cs ih =>
      rw [conditionGroups, List.mapM_cons]
      cases c.toGroup with
      | none => exact if_pos hlogic
      | some group =>
          simp only [ih]
          cases cs.mapM (·.toGroup) <;> rfl

theorem map_toGroup {groups : List ConditionGroup}
    (h : conditions.mapM (·.toGroup) = some groups) :
    conditions.map (·.toGroup) = groups.map some := by
  induction conditions generalizing groups with
  | nil =>
      obtain rfl := Option.some.inj h
      rfl
  | cons c cs ih =>
      rw [List.mapM_cons] at h
      obtain ⟨group, hgroup, hrest⟩ := Option.bind_eq_some_iff.1 h
      obtain ⟨groups', hgroups', hcons⟩ := Option.bind_eq_some_iff.1 hrest
      obtain rfl := Option.some.inj hcons
      rw [List.map_cons, List.map_cons, hgroup, ih hgroups']

/-- The value of a rule whose groups all have conditions. -/
theorem evaluateRule_groups {groups : List ConditionGroup} {operator : RuleOperator}
    {item : ItemData} (hgroups : ∀ group ∈ groups, group.conditions ≠ []) :
    evaluateRule
        { name := "__library_conditions__", conditionGroups := groups, operator := operator }
        item =
      if groups.isEmpty then false
      else
        match operator with
        | .and => groups.all (evaluateGroup · item)
        | .or => groups.any (evaluateGroup · item) := by
  have hall : (groups.filter fun group => !group.conditions.isEmpty) = groups :=
    List.filter_eq_self.2 fun group hgroup => by simpa using hgroups group hgroup
  simp only [evaluateRule, Bool.not_true, Bool.false_or, hall]
  cases operator <;> simp [List.all_map, List.any_map]

/-- Every condition that is a group holds if all groups of them do. -/
theorem all_toGroup {P : ConditionGroup → Bool} :
    (match conditions.mapM (·.toGroup) with
      | none => false
      | some groups => groups.all P) = conditions.all fun c => c.toGroup.any P := by
  induction conditions with
  | nil => rfl
  | cons c cs ih =>
      rw [List.mapM_cons, List.all_cons, ← ih]
      cases c.toGroup with
      | none => rfl
      | some group =>
          cases cs.mapM (·.toGroup) with
          | none => exact (Bool.and_false _).symm
          | some groups => rfl

theorem any_toGroup {P : ConditionGroup → Bool} :
    (conditions.filterMap (·.toGroup)).any P = conditions.any fun c => c.toGroup.any P := by
  induction conditions with
  | nil => rfl
  | cons c cs ih =>
      rw [List.filterMap_cons, List.any_cons, ← ih]
      cases c.toGroup <;> rfl

/-- **The adapter keeps the old meaning**, for all conditions, any logic and every item. -/
theorem evaluateRawConditions_eq (now : Instant) (conditions : List RawCondition) (logic : String)
    (addedDate lastPlayed : Option Instant) (playCount : ℤ) (neverWatched : Bool) :
    evaluateRawConditions now conditions logic addedDate lastPlayed playCount neverWatched =
      legacyConditionsHold now conditions logic addedDate lastPlayed playCount neverWatched := by
  have hholds : (fun c : RawCondition => c.toGroup.any fun group =>
      evaluateGroup group (legacyItem now addedDate lastPlayed playCount neverWatched)) =
        (·.holds now addedDate lastPlayed playCount neverWatched) :=
    funext fun _ => evaluateGroup_toGroup
  rw [evaluateRawConditions, legacyConditionsHold]
  rcases conditions with _ | ⟨c, cs⟩
  · rfl
  rw [if_neg (by simp), if_neg (List.cons_ne_nil _ _), ← hholds]
  by_cases hlogic : logic = "OR"
  · subst hlogic
    -- the groups that there are, and if there are none, no condition holds
    have hgroups : ∀ group ∈ (c :: cs).filterMap (·.toGroup), group.conditions ≠ [] := by
      intro group hgroup
      obtain ⟨c', -, hc'⟩ := List.mem_filterMap.1 hgroup
      exact toGroup_nonempty hc'
    simp only [conditionGroups_or, if_true, evaluateRule_groups hgroups]
    rw [← any_toGroup]
    cases (c :: cs).filterMap (·.toGroup) <;> rfl
  · rw [conditionGroups_and hlogic, if_neg hlogic, if_neg hlogic, ← all_toGroup]
    cases hmapM : (c :: cs).mapM (·.toGroup) with
    | none => rfl
    | some groups =>
        have hmap := map_toGroup hmapM
        have hgroups : ∀ group ∈ groups, group.conditions ≠ [] := by
          intro group hgroup
          have hmem : some group ∈ (c :: cs).map (·.toGroup) := by
            rw [hmap]
            exact List.mem_map_of_mem hgroup
          obtain ⟨c', -, hc'⟩ := List.mem_map.1 hmem
          exact toGroup_nonempty hc'
        simp only [evaluateRule_groups hgroups]
        cases groups with
        | nil => cases hmap
        | cons group groups => rfl

/-- A well-formed condition, as it is stored. -/
def LegacyCondition.raw (c : LegacyCondition) : RawCondition where
  field :=
    match c.field with
    | .daysSinceAdded => "days_since_added"
    | .playCount => "play_count"
    | .neverWatched => "never_watched"
    | .daysNotWatched => "days_not_watched"
  op := c.op.name
  value := c.value

theorem toGroup_raw (c : LegacyCondition) : c.raw.toGroup = some (legacyConditionToGroup c) := by
  have hbuild : ∀ field value, buildCondition field c.op.name value =
      some { field := field, test := .compare c.op (.num value) } := by
    intro field value
    rcases c.op with _ | _ | _ | _ | _ <;> rfl
  rcases c with ⟨_ | _ | _ | _, op, value⟩
  · exact congrArg (Option.map _) (hbuild _ _)
  · exact congrArg (Option.map _) (hbuild _ _)
  · simp [RawCondition.toGroup, LegacyCondition.raw, legacyConditionToGroup]
  · exact congrArg (Option.map _) (hbuild _ _)

/-- **Well-formed conditions** are evaluated as the rest of the model does it. -/
theorem evaluateRawConditions_raw {conditions : List LegacyCondition} {logic : RuleOperator} :
    evaluateRawConditions now (conditions.map (·.raw)) (if logic = .or then "OR" else "AND")
        addedDate lastPlayed playCount neverWatched =
      evaluateConditions now conditions logic addedDate lastPlayed playCount neverWatched := by
  have hgroups : ∀ logic, conditionGroups logic (conditions.map (·.raw)) =
      some (conditions.map legacyConditionToGroup) := by
    intro logic
    induction conditions with
    | nil => rfl
    | cons c cs ih => simp only [List.map_cons, conditionGroups, toGroup_raw, ih, Option.map_some]
  rw [evaluateRawConditions, evaluateConditions, hgroups]
  rcases conditions with _ | ⟨c, cs⟩
  · rfl
  · cases logic <;> rfl

end Conditions

end Hygie
