/-
**From the conditions of a library to an expert rule.**

The migration turns the conditions and the filter of a library into one expert rule, with one
condition for each of them in a single group under the library's logic.  The two evaluators disagree
about dates that are missing and about items that nobody watched: the legacy one fails a missing
date and lets an unwatched item pass every condition on the days since the last play, while the item
data of an expert rule fall back to the date of the addition, and to zero days.  And a filter on the
requester, which the legacy path applies after the conditions, is one more condition of the rule.

Main definitions:

* `buildExpertConditions`, `migratedRule` — the migration;
* `migratedFires`, `legacySelects` — the two paths;
* `Sight` — what the conditions see of an item;
* `LegacyCondition.Selects`, `LegacyCondition.Fires` — what a condition says before and after.

Main results:

* `evaluateCondition_expertCondition` — what the migration makes of a condition;
* `legacySelects_iff`, `migratedFires_iff` — **what the two paths say**.
-/

import Hygie.LegacyConditions

set_option relaxedAutoImplicit false
set_option autoImplicit false

namespace Hygie

/-! ### The migration -/

/-- What `_build_expert_conditions` makes of a condition. -/
def expertCondition (c : LegacyCondition) : Condition :=
  match c.field with
  | .neverWatched =>
      { field := .playCount
        test := if c.value ≠ 0 then .compare .eq (.num 0) else .compare .gte (.num 1) }
  | .daysNotWatched => { field := .daysNotWatched, test := .compare c.op (.num c.value) }
  | .daysSinceAdded => { field := .addedDaysAgo, test := .compare c.op (.num c.value) }
  | .playCount => { field := .playCount, test := .compare c.op (.num c.value) }

/-- What `_build_expert_conditions` makes of the filter on the requester. -/
def expertSeerrConditions (seerrConds : List SeerrCondition) : List Condition :=
  let includes := filteredUsers .userInclude seerrConds
  let excludes := filteredUsers .userExclude seerrConds
  (if includes.isEmpty then []
    else [{ field := .seerrUserId, test := .isIn (includes.map fun n => .num n) }]) ++
  if excludes.isEmpty then []
  else [{ field := .seerrUserId, test := .notIn (excludes.map fun n => .num n) }]

/-- `_build_expert_conditions`. -/
def buildExpertConditions (oldConds : List LegacyCondition) (seerrConds : List SeerrCondition) :
    List Condition :=
  oldConds.map expertCondition ++ expertSeerrConditions seerrConds

/-- The rule that `_m011_libraries_to_expert_rules` writes for a library, as it is loaded again: the
flat list of conditions becomes one group under the operator of the rule. -/
def migratedRule (lib : LibraryRules) : Option ExpertRule :=
  if lib.conditions.isEmpty then none
  else
    let newConds := buildExpertConditions lib.conditions lib.seerrConditions
    if newConds.isEmpty then none
    else
      some
        { name := lib.name ++ " (migré)"
          libraryId := some (.text lib.id)
          conditionGroups := [{ conditions := newConds, operator := lib.logic }]
          operator := lib.logic
          action := .queue
          enabled := lib.enabled
          priority := 0 }

section Paths

variable (lib : LibraryRules) (now : Instant) (item : ItemFacts) (addedDate : Option Instant)
  (st : WatchState) (seerrUserId : Option ℤ)

/-- The migrated rule fires for an item. -/
def migratedFires : Bool :=
  (migratedRule lib).any fun rule =>
    evaluateRule rule (buildItemData now item st.playCount st.lastPlayed addedDate seerrUserId)

/-- The conditions and the filter of the library select an item. -/
def legacySelects : Bool :=
  evaluateConditions now lib.conditions lib.logic addedDate st.lastPlayed st.playCount
      st.neverWatched &&
    seerrFilterPasses seerrUserId lib.seerrConditions

end Paths

/-! ### One condition -/

/-- What the number of a condition is about. -/
inductive Subject
  | addition
  | plays
  | lastPlay
  deriving DecidableEq, Repr

/-- The subject of a condition: the days since the addition, the plays, or the days since the last
one. -/
def LegacyCondition.subject (c : LegacyCondition) : Subject :=
  match c.field with
  | .daysSinceAdded => .addition
  | .playCount => .plays
  | .neverWatched => .plays
  | .daysNotWatched => .lastPlay

/-- A condition accepts a number. -/
def LegacyCondition.Accepts (c : LegacyCondition) (x : ℤ) : Prop :=
  match c.field with
  | .neverWatched => x = 0 ↔ c.value ≠ 0
  | _ => c.op.holds (.num x) (.num c.value) = true

/-- What the conditions see of an item. -/
structure Sight where
  /-- The days since it was added, if that is known. -/
  added : Option ℤ
  plays : ℤ
  /-- The days since it was played, if that is known. -/
  lastPlay : Option ℤ
  nonneg : 0 ≤ plays
  lastPlay_eq : plays = 0 → lastPlay = none

/-- What a condition of a library says: a missing date fails, and an item that nobody watched meets
every condition on the last play. -/
def LegacyCondition.Selects (c : LegacyCondition) (v : Sight) : Prop :=
  match c.subject with
  | .addition => ∃ x, v.added = some x ∧ c.Accepts x
  | .plays => c.Accepts v.plays
  | .lastPlay => v.plays = 0 ∨ ∃ y, v.lastPlay = some y ∧ c.Accepts y

/-- What it says after the migration: zero days stand for a missing date of the addition, which
stands for a missing date of the last play. -/
def LegacyCondition.Fires (c : LegacyCondition) (v : Sight) : Prop :=
  match c.subject with
  | .addition => c.Accepts (v.added.getD 0)
  | .plays => c.Accepts v.plays
  | .lastPlay => c.Accepts (v.lastPlay.getD (v.added.getD 0))

theorem WatchState.WellFormed.plays_nonneg {st : WatchState} (h : st.WellFormed) :
    0 ≤ st.playCount := by
  cases hnever : st.neverWatched with
  | true => exact (h.count_eq hnever).ge
  | false => exact (h.count_pos hnever).le

theorem WatchState.WellFormed.neverWatched_iff {st : WatchState} (h : st.WellFormed) :
    st.neverWatched = true ↔ st.playCount = 0 := by
  refine ⟨h.count_eq, fun hzero => ?_⟩
  by_contra hseen
  exact (h.count_pos (by simpa using hseen)).ne' hzero

/-- What the conditions see of an item with these plays. -/
def WatchState.WellFormed.sight {st : WatchState} (h : st.WellFormed) (now : Instant)
    (addedDate : Option Instant) : Sight where
  added := addedDate.map (daysBetween now)
  plays := st.playCount
  lastPlay := st.lastPlayed.map (daysBetween now)
  nonneg := h.plays_nonneg
  lastPlay_eq hzero := by
    rw [h.played_eq (h.neverWatched_iff.2 hzero)]
    rfl

section Agreement

variable {lib : LibraryRules} {now : Instant} {item : ItemFacts} {addedDate : Option Instant}
  {st : WatchState} {seerrUserId : Option ℤ}

/-- What a condition of a library says. -/
theorem holds_iff_selects (hst : st.WellFormed) (c : LegacyCondition) :
    c.holds now addedDate st ↔ c.Selects (hst.sight now addedDate) := by
  have hnever := hst.neverWatched_iff
  rcases c with ⟨_ | _ | _ | _, op, value⟩
  · simp [LegacyCondition.holds, LegacyCondition.Selects, LegacyCondition.subject,
      LegacyCondition.Accepts, WatchState.WellFormed.sight]
  · rfl
  · simp only [LegacyCondition.holds, LegacyCondition.Selects, LegacyCondition.subject,
      LegacyCondition.Accepts, WatchState.WellFormed.sight, hnever]
  · simp [LegacyCondition.holds, LegacyCondition.Selects, LegacyCondition.subject,
      LegacyCondition.Accepts, WatchState.WellFormed.sight, hnever]

/-- What the migration makes of a condition. -/
theorem evaluateCondition_expertCondition (hst : st.WellFormed) (c : LegacyCondition) :
    evaluateCondition (expertCondition c)
        (buildItemData now item st.playCount st.lastPlayed addedDate seerrUserId) = true ↔
      c.Fires (hst.sight now addedDate) := by
  have hnonneg := hst.plays_nonneg
  rcases c with ⟨_ | _ | _ | _, op, value⟩
  · cases addedDate <;>
      simp [expertCondition, evaluateCondition, buildItemData, LegacyCondition.Fires,
        LegacyCondition.subject, LegacyCondition.Accepts, WatchState.WellFormed.sight]
  · rfl
  · -- an item has been watched if and only if it has been played once at least
    by_cases hvalue : value = 0 <;>
      simp [expertCondition, evaluateCondition, buildItemData, LegacyCondition.Fires,
        LegacyCondition.subject, LegacyCondition.Accepts, WatchState.WellFormed.sight, hvalue,
        NumericOp.holds]
    exact_mod_cast (by omega : 1 ≤ st.playCount ↔ ¬ st.playCount = 0)
  · rcases st with ⟨playCount, neverWatched, lastPlayed⟩
    cases lastPlayed <;> cases addedDate <;>
      simp [expertCondition, evaluateCondition, buildItemData, LegacyCondition.Fires,
        LegacyCondition.subject, LegacyCondition.Accepts, WatchState.WellFormed.sight]

/-! ### The filter on the requester -/

/-- The requester is on the include list. -/
def Included (lib : LibraryRules) (seerrUserId : Option ℤ) : Prop :=
  inUsers seerrUserId (filteredUsers .userInclude lib.seerrConditions) = true

/-- The requester is on the exclude list. -/
def Excluded (lib : LibraryRules) (seerrUserId : Option ℤ) : Prop :=
  inUsers seerrUserId (filteredUsers .userExclude lib.seerrConditions) = true

/-- The library has a list of this type. -/
def HasList (lib : LibraryRules) (type : SeerrFilter) : Prop :=
  filteredUsers type lib.seerrConditions ≠ []

/-- The filter lets the requester pass. -/
def Passes (lib : LibraryRules) (seerrUserId : Option ℤ) : Prop :=
  (HasList lib .userInclude → Included lib seerrUserId) ∧ ¬ Excluded lib seerrUserId

theorem hasList_of_excluded (h : Excluded lib seerrUserId) : HasList lib .userExclude := by
  intro hnil
  simp [Excluded, hnil, inUsers] at h

theorem hasList_of_included (h : Included lib seerrUserId) : HasList lib .userInclude := by
  intro hnil
  simp [Included, hnil, inUsers] at h

theorem seerrFilterPasses_iff :
    seerrFilterPasses seerrUserId lib.seerrConditions = true ↔ Passes lib seerrUserId := by
  simp only [Passes]
  rcases hconds : lib.seerrConditions with _ | ⟨c, cs⟩
  · simp [seerrFilterPasses, HasList, Excluded, hconds, filteredUsers, inUsers]
  · rcases hexcludes : filteredUsers .userExclude (c :: cs) with _ | ⟨user, users⟩ <;>
      rcases hincludes : filteredUsers .userInclude (c :: cs) with _ | ⟨user', users'⟩ <;>
      simp [seerrFilterPasses, HasList, Included, Excluded, hconds, hexcludes, hincludes, inUsers]

/-- All conditions that the filter becomes hold. -/
theorem forall_expertSeerrConditions :
    (∀ c ∈ expertSeerrConditions lib.seerrConditions, evaluateCondition c
        (buildItemData now item st.playCount st.lastPlayed addedDate seerrUserId) = true) ↔
      (HasList lib .userInclude → Included lib seerrUserId) ∧
        (HasList lib .userExclude → seerrUserId ≠ none ∧ ¬ Excluded lib seerrUserId) := by
  rcases seerrUserId with _ | user <;>
    rcases hexcludes : filteredUsers .userExclude lib.seerrConditions with _ | ⟨user, users⟩ <;>
    rcases hincludes : filteredUsers .userInclude lib.seerrConditions with _ | ⟨user', users'⟩ <;>
    simp [expertSeerrConditions, HasList, Included, Excluded, hexcludes, hincludes, inUsers,
      evaluateCondition, buildItemData]

/-- Some condition that the filter becomes holds. -/
theorem exists_expertSeerrConditions :
    (∃ c ∈ expertSeerrConditions lib.seerrConditions, evaluateCondition c
        (buildItemData now item st.playCount st.lastPlayed addedDate seerrUserId) = true) ↔
      Included lib seerrUserId ∨
        HasList lib .userExclude ∧ seerrUserId ≠ none ∧ ¬ Excluded lib seerrUserId := by
  rcases seerrUserId with _ | user <;>
    rcases hexcludes : filteredUsers .userExclude lib.seerrConditions with _ | ⟨user, users⟩ <;>
    rcases hincludes : filteredUsers .userInclude lib.seerrConditions with _ | ⟨user', users'⟩ <;>
    simp [expertSeerrConditions, HasList, Included, Excluded, hexcludes, hincludes, inUsers,
      evaluateCondition, buildItemData]

/-! ### The two paths -/

/-- A rule with one group of conditions under its own operator. -/
theorem migratedFires_eq (hconditions : lib.conditions ≠ []) :
    migratedFires lib now item addedDate st seerrUserId =
      (lib.enabled &&
        let item := buildItemData now item st.playCount st.lastPlayed addedDate seerrUserId
        match lib.logic with
        | .and => (buildExpertConditions lib.conditions lib.seerrConditions).all
            (evaluateCondition · item)
        | .or => (buildExpertConditions lib.conditions lib.seerrConditions).any
            (evaluateCondition · item)) := by
  have hnew : buildExpertConditions lib.conditions lib.seerrConditions ≠ [] := by
    simp [buildExpertConditions, hconditions]
  cases henabled : lib.enabled <;> cases hlogic : lib.logic <;>
    simp [migratedFires, migratedRule, evaluateRule, evaluateGroup, henabled, hlogic, hconditions,
      hnew]

/-- What the migrated rule says of an item and its requester. -/
def LibraryRules.Fires (lib : LibraryRules) (v : Sight) (requester : Option ℤ) : Prop :=
  lib.enabled = true ∧
    match lib.logic with
    | .and => (∀ c ∈ lib.conditions, c.Fires v) ∧
        (HasList lib .userInclude → Included lib requester) ∧
        (HasList lib .userExclude → requester ≠ none ∧ ¬ Excluded lib requester)
    | .or => (∃ c ∈ lib.conditions, c.Fires v) ∨ Included lib requester ∨
        HasList lib .userExclude ∧ requester ≠ none ∧ ¬ Excluded lib requester

/-- What the library says of an item and its requester. -/
def LibraryRules.Selects (lib : LibraryRules) (v : Sight) (requester : Option ℤ) : Prop :=
  lib.logic.combines lib.conditions (·.Selects v) ∧ Passes lib requester

theorem legacySelects_iff (hst : st.WellFormed) (hconditions : lib.conditions ≠ []) :
    legacySelects lib now addedDate st seerrUserId = true ↔
      lib.Selects (hst.sight now addedDate) seerrUserId := by
  rw [legacySelects, Bool.and_eq_true, evaluateConditions_iff, seerrFilterPasses_iff,
    and_iff_right hconditions]
  simp only [LibraryRules.Selects, holds_iff_selects hst]

theorem migratedFires_iff (hst : st.WellFormed) (hconditions : lib.conditions ≠ []) :
    migratedFires lib now item addedDate st seerrUserId = true ↔
      lib.Fires (hst.sight now addedDate) seerrUserId := by
  rw [migratedFires_eq hconditions, LibraryRules.Fires]
  cases hlogic : lib.logic with
  | and =>
      rw [← @forall_expertSeerrConditions lib now item addedDate st seerrUserId]
      simp only [Bool.and_eq_true, List.all_eq_true, buildExpertConditions, List.forall_mem_append,
        List.forall_mem_map, evaluateCondition_expertCondition hst]
  | or =>
      rw [← @exists_expertSeerrConditions lib now item addedDate st seerrUserId]
      simp only [Bool.and_eq_true, List.any_eq_true, buildExpertConditions, List.mem_append,
        or_and_right, exists_or, List.mem_map, exists_exists_and_eq_and,
        evaluateCondition_expertCondition hst]

end Agreement

end Hygie
