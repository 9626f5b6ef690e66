/-
**The conditions of a library.**

Before there were expert rules, every library had a list of conditions of its own and a filter on
the user who requested an item.  The program turns the conditions into an expert rule whenever it
needs them (`evaluateConditions`): one group for each condition, combined by the library's logic.  A
condition on the days since the last play holds of every item that nobody watched, and a field
without a value fails.

The plays of an item are those of all users together.  An item is unwatched, and then its play count
is zero and it has no last play, or its play count is positive (`WatchState`).

Main definitions:

* `LegacyCondition`, `SeerrCondition`, `LibraryRules` — what a library asks for;
* `aggregateUserData`, `WatchState` — the plays of an item;
* `evaluateConditions`, `seerrFilterPasses`, `seerrFilterRejects` — whether the item is selected.

Main results:

* `aggregateUserData_wellFormed` — **what the plays of all users look like**;
* `evaluateConditions_iff` — **the conditions, one by one**.
-/

import Hygie.ExpertRules
import Hygie.Schema

set_option relaxedAutoImplicit false
set_option autoImplicit false

namespace Hygie

/-! ### What a library asks for -/

/-- The fields of a legacy condition. -/
inductive LegacyField
  | daysSinceAdded
  | playCount
  | neverWatched
  | daysNotWatched
  deriving DecidableEq, Repr

/-- A condition of a library. -/
structure LegacyCondition where
  field : LegacyField
  op : NumericOp := .gt
  value : ℤ := 0
  deriving DecidableEq, Repr

/-- The type of an entry of `seerr_conditions`. -/
inductive SeerrFilter
  | userInclude
  | userExclude
  deriving DecidableEq, Repr

/-- An entry of `seerr_conditions`. -/
structure SeerrCondition where
  type : SeerrFilter
  userId : ℤ
  deriving DecidableEq, Repr

/-- What a library asks for. -/
structure LibraryRules where
  id : String
  name : String
  conditions : List LegacyCondition
  logic : RuleOperator := .and
  seerrConditions : List SeerrCondition := []
  enabled : Bool := true
  deriving DecidableEq, Repr

/-! ### The plays of an item -/

/-- A text that should be a date: there is none, `parse_iso_dt` cannot read it, or it is an
instant. -/
inductive DateText
  | absent
  | unreadable
  | at (t : Instant)
  deriving DecidableEq, Repr

/-- `parse_iso_dt`. -/
def DateText.parse : DateText → Option Instant
  | .at t => some t
  | _ => none

/-- What a user's data say about an item. -/
structure UserData where
  playCount : ℤ := 0
  played : Bool := false
  lastPlayedDate : DateText := .absent
  deriving DecidableEq, Repr

/-- The plays of an item. -/
structure WatchState where
  playCount : ℤ
  neverWatched : Bool
  lastPlayed : Option Instant
  deriving DecidableEq, Repr

/-- The later of two plays. -/
def laterPlay (lastPlayed fresh : Option Instant) : Option Instant :=
  match fresh with
  | none => lastPlayed
  | some lp =>
      match lastPlayed with
      | none => some lp
      | some t => if t < lp then some lp else some t

/-- The plays that count: an item marked as played has been played once at least. -/
def UserData.effectiveCount (ud : UserData) : ℤ :=
  if ud.played then max ud.playCount 1 else ud.playCount

/-- The last play, from the activity log where the user's data have none. -/
def UserData.lastPlay (logged : DateText) (ud : UserData) : Option Instant :=
  (if ud.lastPlayedDate = .absent then logged else ud.lastPlayedDate).parse

/-- One round of `_aggregate_user_data`; `logged` is the entry of the activity log. -/
def addUserData (logged : DateText) (st : WatchState) (ud : UserData) : WatchState :=
  if ud.played = true ∨ 0 < ud.playCount then
    { playCount := max st.playCount ud.effectiveCount
      neverWatched := false
      lastPlayed := laterPlay st.lastPlayed (ud.lastPlay logged) }
  else { st with playCount := max st.playCount ud.effectiveCount }

/-- `_aggregate_user_data`. -/
def aggregateUserData (logged : DateText) (users : List UserData) : WatchState :=
  users.foldl (addUserData logged) { playCount := 0, neverWatched := true, lastPlayed := none }

/-- What the plays of all users look like. -/
structure WatchState.WellFormed (st : WatchState) : Prop where
  count_eq : st.neverWatched = true → st.playCount = 0
  played_eq : st.neverWatched = true → st.lastPlayed = none
  count_pos : st.neverWatched = false → 0 < st.playCount

theorem effectiveCount_pos {ud : UserData} (h : ud.played = true ∨ 0 < ud.playCount) :
    0 < ud.effectiveCount := by
  simp only [UserData.effectiveCount]
  split_ifs with hplayed
  · exact lt_max_of_lt_right zero_lt_one
  · exact h.resolve_left hplayed

theorem effectiveCount_nonpos {ud : UserData} (h : ¬ (ud.played = true ∨ 0 < ud.playCount)) :
    ud.effectiveCount ≤ 0 := by
  obtain ⟨hplayed, hcount⟩ := not_or.1 h
  simpa [UserData.effectiveCount, hplayed] using hcount

theorem addUserData_wellFormed {logged : DateText} {st : WatchState} {ud : UserData}
    (h : st.WellFormed) : (addUserData logged st ud).WellFormed := by
  simp only [addUserData]
  split_ifs with hwatched
  · exact ⟨nofun, nofun, fun _ => lt_max_of_lt_right (effectiveCount_pos hwatched)⟩
  · refine ⟨fun hnever => ?_, h.played_eq, fun hseen => lt_max_of_lt_left (h.count_pos hseen)⟩
    simp only [h.count_eq hnever, max_eq_left (effectiveCount_nonpos hwatched)]

/-- **What the plays of all users look like.** -/
theorem aggregateUserData_wellFormed (logged : DateText) (users : List UserData) :
    (aggregateUserData logged users).WellFormed := by
  have hfold : ∀ st : WatchState, st.WellFormed →
      (users.foldl (addUserData logged) st).WellFormed := by
    induction users with
    | nil => exact fun st h => h
    | cons ud users ih => exact fun st h => ih _ (addUserData_wellFormed h)
  exact hfold _ ⟨fun _ => rfl, fun _ => rfl, nofun⟩

/-! ### The conditions -/

/-- `_legacy_condition_to_group`. -/
def legacyConditionToGroup (c : LegacyCondition) : ConditionGroup :=
  match c.field with
  | .daysSinceAdded =>
      { conditions := [{ field := .addedDaysAgo, test := .compare c.op (.num c.value) }] }
  | .playCount => { conditions := [{ field := .playCount, test := .compare c.op (.num c.value) }] }
  | .neverWatched =>
      { conditions :=
          [{ field := .neverWatched, test := .compare .eq (.num (if c.value ≠ 0 then 1 else 0)) }] }
  | .daysNotWatched =>
      { operator := .or
        conditions :=
          [{ field := .neverWatched, test := .compare .eq (.num 1) },
            { field := .daysNotWatched, test := .compare c.op (.num c.value) }] }

/-- The fields of an item as `_evaluate_conditions` gives them to the rule. -/
def legacyItem (now : Instant) (addedDate lastPlayed : Option Instant) (playCount : ℤ)
    (neverWatched : Bool) : ItemData
  | .playCount => some (.num playCount)
  | .neverWatched => some (.num (if neverWatched then 1 else 0))
  | .addedDaysAgo => addedDate.map fun t => .num (daysBetween now t)
  | .daysNotWatched =>
      if neverWatched then none else lastPlayed.map fun t => .num (daysBetween now t)
  | _ => none

/-- `_evaluate_conditions`. -/
def evaluateConditions (now : Instant) (conditions : List LegacyCondition) (logic : RuleOperator)
    (addedDate lastPlayed : Option Instant) (playCount : ℤ) (neverWatched : Bool) : Bool :=
  if conditions.isEmpty then false
  else
    evaluateRule
      { name := "__library_conditions__", conditionGroups := conditions.map legacyConditionToGroup
        operator := logic }
      (legacyItem now addedDate lastPlayed playCount neverWatched)

/-- Whether a condition of a library holds of an item. -/
def LegacyCondition.holds (now : Instant) (addedDate : Option Instant) (st : WatchState)
    (c : LegacyCondition) : Prop :=
  match c.field with
  | .daysSinceAdded =>
      ∃ t, addedDate = some t ∧ c.op.holds (.num (daysBetween now t)) (.num c.value) = true
  | .playCount => c.op.holds (.num st.playCount) (.num c.value) = true
  | .neverWatched => (st.neverWatched = true ↔ c.value ≠ 0)
  | .daysNotWatched =>
      st.neverWatched = true ∨
        ∃ t, st.lastPlayed = some t ∧ c.op.holds (.num (daysBetween now t)) (.num c.value) = true

/-- The group of a condition says what the condition says. -/
theorem evaluateGroup_legacy {now : Instant} {addedDate : Option Instant} {st : WatchState}
    {c : LegacyCondition} :
    evaluateGroup (legacyConditionToGroup c)
        (legacyItem now addedDate st.lastPlayed st.playCount st.neverWatched) = true ↔
      c.holds now addedDate st := by
  rcases st with ⟨playCount, neverWatched, lastPlayed⟩
  rcases c with ⟨_ | _ | _ | _, op, value⟩
  · cases addedDate <;>
      simp [evaluateGroup, legacyConditionToGroup, evaluateCondition, legacyItem,
        LegacyCondition.holds]
  · simp [evaluateGroup, legacyConditionToGroup, evaluateCondition, legacyItem,
      LegacyCondition.holds]
  · cases neverWatched <;> by_cases hvalue : value = 0 <;>
      simp [evaluateGroup, legacyConditionToGroup, evaluateCondition, legacyItem,
        LegacyCondition.holds, NumericOp.holds_eq, hvalue]
  · cases neverWatched <;> cases lastPlayed <;>
      simp [evaluateGroup, legacyConditionToGroup, evaluateCondition, legacyItem,
        LegacyCondition.holds, NumericOp.holds_eq]

theorem legacyConditionToGroup_nonempty (c : LegacyCondition) :
    (legacyConditionToGroup c).conditions ≠ [] := by
  rcases c with ⟨_ | _ | _ | _, op, value⟩ <;> exact List.cons_ne_nil _ _

/-- **The conditions, one by one.** -/
theorem evaluateConditions_iff {now : Instant} {conditions : List LegacyCondition}
    {logic : RuleOperator} {addedDate : Option Instant} {st : WatchState} :
    evaluateConditions now conditions logic addedDate st.lastPlayed st.playCount st.neverWatched =
        true ↔
      conditions ≠ [] ∧ logic.combines conditions (·.holds now addedDate st) := by
  rcases conditions with _ | ⟨c, cs⟩
  · simp [evaluateConditions]
  · cases logic <;>
      simp [evaluateConditions, evaluateRule, evaluateGroup_legacy, legacyConditionToGroup_nonempty,
        RuleOperator.combines]

/-- The users of one type of entry. -/
def filteredUsers (type : SeerrFilter) (seerrConditions : List SeerrCondition) : List ℤ :=
  (seerrConditions.filter (·.type = type)).map (·.userId)

/-- Python's `x in users` for an optional number. -/
def inUsers (seerrUserId : Option ℤ) (users : List ℤ) : Bool :=
  seerrUserId.any (· ∈ users)

/-- `_seerr_filter_passes`. -/
def seerrFilterPasses (seerrUserId : Option ℤ) (seerrConditions : List SeerrCondition) : Bool :=
  if seerrConditions.isEmpty then true
  else
    let includes := filteredUsers .userInclude seerrConditions
    let excludes := filteredUsers .userExclude seerrConditions
    if !includes.isEmpty && !inUsers seerrUserId includes then false
    else if !excludes.isEmpty && inUsers seerrUserId excludes then false
    else true

/-- `_seerr_filter_rejects`. -/
def seerrFilterRejects (seerrUserId : Option ℤ) (seerrConditions : List SeerrCondition) : Bool :=
  if seerrConditions.isEmpty then false
  else if seerrConditions.any (·.type = .userInclude) && (truthyId seerrUserId).isNone then true
  else !seerrFilterPasses seerrUserId seerrConditions

end Hygie
