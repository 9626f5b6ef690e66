/-
**Expert rules.**

An expert rule puts an item on the queue: groups of conditions on the fields of the item, combined
by `AND` or `OR` within a group and between groups, and the libraries it applies to.  A field
without a value fails every condition on it, whatever the operator.

A number is rational, since the program compares integers and floating-point numbers by their exact
values.  A rule has finitely many ways to match (`ExpertRule.alternatives`), each a list of
conditions that must all hold.

Main definitions:

* `Condition`, `ConditionGroup`, `ExpertRule` — rules;
* `evaluateCondition`, `evaluateRule` — whether an item matches;
* `ExpertRule.appliesTo`, `evaluateExpertRules` — the libraries of a rule, and the first that
  matches;
* `buildItemData`, `buildPlexItemData` — the fields of an item.

Main results:

* `evaluateRule_iff` — **a rule matches if and only if one of its alternatives holds**;
* `evaluateCondition_none` — **a field without a value fails every condition**.
-/

import Hygie.Alternatives

set_option relaxedAutoImplicit false
set_option autoImplicit false

namespace Hygie

/-! ### Conditions -/

/-- A number or a text. -/
inductive Scalar
  | num (q : ℚ)
  | str (s : String)
  deriving DecidableEq, Repr

/-- `ConditionField`. -/
inductive ConditionField
  | daysNotWatched
  | playCount
  | rating
  | fileSizeGb
  | addedDaysAgo
  | mediaType
  | seerrUserId
  | neverWatched
  deriving DecidableEq, Repr

/-- The operators of `_NUMERIC_OPS`. -/
inductive NumericOp
  | gt
  | lt
  | gte
  | lte
  | eq
  deriving DecidableEq, Repr

/-- An operator with its value: `_validate_list_ops` gives `in` and `not_in` a list and the others
none. -/
inductive Test
  | compare (op : NumericOp) (value : Scalar)
  | isIn (values : List Scalar)
  | notIn (values : List Scalar)
  deriving DecidableEq, Repr

/-- `Condition`. -/
structure Condition where
  field : ConditionField
  test : Test
  deriving DecidableEq, Repr

/-- `RuleOperator`. -/
inductive RuleOperator
  | and
  | or
  deriving DecidableEq, Repr

/-- All of the given things have a property, or some of them. -/
def RuleOperator.combines {α : Type} (op : RuleOperator) (xs : List α) (P : α → Prop) : Prop :=
  match op with
  | .and => ∀ x ∈ xs, P x
  | .or => ∃ x ∈ xs, P x

/-- `ConditionGroup`. -/
structure ConditionGroup where
  conditions : List Condition
  operator : RuleOperator := .and
  deriving DecidableEq, Repr

/-- `RuleAction`. -/
inductive RuleAction
  | queue
  | notifyOnly
  deriving DecidableEq, Repr

/-- What the legacy column `library_id` of a rule may hold. -/
inductive LibraryRef
  | text (s : String)
  | number (n : ℤ)
  deriving DecidableEq, Repr

/-- `str(library_id)`. -/
def LibraryRef.toString : LibraryRef → String
  | text s => s
  | number n => Int.repr n

/-- Python's truth test. -/
def LibraryRef.truthy : LibraryRef → Bool
  | text s => s ≠ ""
  | number n => n ≠ 0

/-- `ExpertRule`; without `library_ids` and `library_id` it is for all libraries. -/
structure ExpertRule where
  name : String
  libraryId : Option LibraryRef := none
  libraryIds : Option (List String) := none
  conditionGroups : List ConditionGroup
  operator : RuleOperator := .and
  action : RuleAction := .queue
  graceDays : ℤ := 7
  enabled : Bool := true
  priority : ℤ := 0
  deriving DecidableEq, Repr

/-! ### Evaluation -/

/-- The fields of an item; no value where the key is missing or holds `None`. -/
abbrev ItemData := ConditionField → Option Scalar

/-- `_NUMERIC_OPS[op](a, b)`; ordering a number and a text raises, which fails the condition. -/
def NumericOp.holds : NumericOp → Scalar → Scalar → Bool
  | .eq, a, b => a = b
  | .gt, .num a, .num b => b < a
  | .lt, .num a, .num b => a < b
  | .gte, .num a, .num b => b ≤ a
  | .lte, .num a, .num b => a ≤ b
  | .gt, .str a, .str b => b < a
  | .lt, .str a, .str b => a < b
  | .gte, .str a, .str b => ¬ a < b
  | .lte, .str a, .str b => ¬ b < a
  | _, _, _ => false

theorem NumericOp.holds_eq {a b : Scalar} : NumericOp.eq.holds a b = decide (a = b) := rfl

/-- `evaluate_condition`. -/
def evaluateCondition (condition : Condition) (item : ItemData) : Bool :=
  match item condition.field, condition.test with
  | none, _ => false
  | some raw, .compare op value => op.holds raw value
  | some raw, .isIn values => raw ∈ values
  | some raw, .notIn values => raw ∉ values

/-- Whether a group holds: all of its conditions or any of them. -/
def evaluateGroup (group : ConditionGroup) (item : ItemData) : Bool :=
  match group.operator with
  | .and => group.conditions.all (evaluateCondition · item)
  | .or => group.conditions.any (evaluateCondition · item)

/-- `evaluate_rule`: a group without conditions does not count. -/
def evaluateRule (rule : ExpertRule) (item : ItemData) : Bool :=
  if !rule.enabled || rule.conditionGroups.isEmpty then false
  else
    let groupResults := (rule.conditionGroups.filter fun g => !g.conditions.isEmpty).map
      (evaluateGroup · item)
    match rule.operator with
    | .and => groupResults.all id
    | .or => groupResults.any id

/-- The scoping of `_evaluate_expert_rules`: `library_ids` takes precedence over `library_id`. -/
def ExpertRule.appliesTo (rule : ExpertRule) (libraryId : Option String) : Bool :=
  match rule.libraryIds with
  | some ids =>
      match libraryId with
      | none => false
      | some id => id ∈ ids
  | none =>
      match rule.libraryId, libraryId with
      | some ref, some id => ref.toString = id
      | _, _ => true

/-- `_evaluate_expert_rules`: the action and the grace days of the first rule that applies to the
library and matches. -/
def evaluateExpertRules (rules : List ExpertRule) (item : ItemData) (libraryId : Option String) :
    Option RuleAction × ℤ :=
  match rules.find? fun rule => rule.appliesTo libraryId && evaluateRule rule item with
  | some rule => (some rule.action, rule.graceDays)
  | none => (none, 7)

/-! ### What an item looks like -/

/-- Microseconds since the epoch. -/
abbrev Instant := ℤ

/-- `(now - t).days`: whole days, rounded down. -/
def daysBetween (now t : Instant) : ℤ := (now - t) / 86400000000

/-- What `_build_item_data` reads of an item besides its dates and plays. -/
structure ItemFacts where
  rating : ℚ := 0
  fileSizeGb : ℚ := 0
  mediaType : String := "Movie"
  deriving DecidableEq, Repr

/-- `_build_item_data`. -/
def buildItemData (now : Instant) (item : ItemFacts) (playCount : ℤ) (lastPlayed addedDate :
    Option Instant) (seerrUserId : Option ℤ) : ItemData
  | .daysNotWatched =>
      some (.num (match lastPlayed, addedDate with
        | some played, _ => daysBetween now played
        | none, some added => daysBetween now added
        | none, none => 0))
  | .playCount => some (.num playCount)
  | .rating => some (.num item.rating)
  | .fileSizeGb => some (.num item.fileSizeGb)
  | .addedDaysAgo => some (.num (match addedDate with
      | some added => daysBetween now added
      | none => 0))
  | .mediaType => some (.str (if item.mediaType = "" then "Movie" else item.mediaType))
  | .seerrUserId => seerrUserId.map fun n => .num n
  | .neverWatched => some (.num (if playCount = 0 ∧ lastPlayed = none then 1 else 0))

/-- What the scan of a Plex library reads of an item. -/
structure PlexFacts where
  addedAt : Option Instant
  lastViewedAt : Option Instant
  viewCount : ℤ
  rating : ℚ := 0
  mediaType : String := "Movie"
  deriving DecidableEq, Repr

/-- `_build_plex_item_data`: a Plex item has no requester and no size. -/
def buildPlexItemData (now : Instant) (item : PlexFacts) : ItemData :=
  buildItemData now { rating := item.rating, mediaType := item.mediaType } item.viewCount
    item.lastViewedAt item.addedAt none

/-! ### Matching -/

section Matching

variable {condition : Condition} {group : ConditionGroup} {rule : ExpertRule} {item : ItemData}

/-- **A field without a value fails every condition.** -/
theorem evaluateCondition_none (h : item condition.field = none) :
    evaluateCondition condition item = false := by
  simp [evaluateCondition, h]

/-- The ways to meet a group. -/
def ConditionGroup.alternatives (group : ConditionGroup) : List (List Condition) :=
  match group.operator with
  | .and => [group.conditions]
  | .or => group.conditions.map fun c => [c]

/-- The ways to match a rule. -/
def ExpertRule.alternatives (rule : ExpertRule) : List (List Condition) :=
  if !rule.enabled || rule.conditionGroups.isEmpty then []
  else
    let groups := (rule.conditionGroups.filter fun g => !g.conditions.isEmpty).map
      ConditionGroup.alternatives
    match rule.operator with
    | .and => allAlternatives groups
    | .or => groups.flatten

theorem evaluateGroup_iff :
    evaluateGroup group item = true ↔
      Met (fun c => evaluateCondition c item = true) group.alternatives := by
  rcases group with ⟨conditions, _ | _⟩
  · simp [evaluateGroup, ConditionGroup.alternatives, met_singleton]
  · simp [evaluateGroup, ConditionGroup.alternatives, Met]

/-- **A rule matches if and only if one of its alternatives holds.** -/
theorem evaluateRule_iff :
    evaluateRule rule item = true ↔
      Met (fun c => evaluateCondition c item = true) rule.alternatives := by
  simp only [evaluateRule, ExpertRule.alternatives]
  split_ifs with hoff
  · simp
  · cases rule.operator with
    | and =>
        simp only [List.all_map, List.all_eq_true, met_allAlternatives, List.forall_mem_map,
          Function.comp_apply, id_eq, evaluateGroup_iff]
    | or =>
        simp only [List.any_map, List.any_eq_true, met_flatten, List.mem_map,
          Function.comp_apply, id_eq, evaluateGroup_iff, exists_exists_and_eq_and]

end Matching

end Hygie
