/-
**Which libraries keep their meaning.**

The rule that the migration writes for a library differs from the library where a date is missing,
where nobody watched an item, and where there is a list of requesters.  Whether that ever matters is
a question about the library alone: about the numbers that its conditions accept, and about its
lists.  Every combination of days and plays that the conditions can see is that of some item.

Main definitions:

* `LibraryRules.Asks`, `LibraryRules.Accepts` — what a library wants to know, and which numbers do;
* `LibraryRules.KeepsAnd`, `LibraryRules.KeepsOr` — the numbers for which the fallbacks do no harm;
* `LibraryRules.Unmet`, `LibraryRules.NobodyPasses` — a library that selects nothing;
* `LibraryRules.KeepsMeaning` — the condition on a library.

Main results:

* `exists_sight` — whatever the conditions can see, some item looks like that;
* `keepsAnd_iff`, `keepsOr_iff` — the conditions without the lists;
* `migratedFires_iff_legacySelects_iff` — **exactly which libraries keep their meaning**.
-/

import Hygie.RuleMigration
import Mathlib.Data.Set.Finite.Basic

set_option relaxedAutoImplicit false
set_option autoImplicit false

namespace Hygie

/-! ### What a library asks for -/

namespace LibraryRules

variable (lib : LibraryRules)

/-- Some condition is about this. -/
def Asks (s : Subject) : Prop := ∃ c ∈ lib.conditions, c.subject = s

/-- The conditions about this accept a number: all of them, or some, as the logic says. -/
def Accepts (s : Subject) (x : ℤ) : Prop :=
  lib.logic.combines (lib.conditions.filter (·.subject = s)) (·.Accepts x)

/-- Under `AND`, the fallbacks do no harm.  Of the items that nobody watched, those whose addition
is long enough ago would do for the last play too, and zero days are not long enough; and where
items that somebody watched are wanted, no number of days would do for both dates, and none for the
last play if zero days would do for the addition. -/
structure KeepsAnd : Prop where
  unwatched : lib.Accepts .plays 0 → ∀ x, lib.Accepts .addition x → lib.Accepts .lastPlay x
  unwatchedUndated : lib.Accepts .plays 0 → lib.Asks .addition → ¬ lib.Accepts .addition 0
  watched : ∀ n, 0 < n → lib.Accepts .plays n → lib.Asks .lastPlay →
    ∀ x, lib.Accepts .addition x → ¬ lib.Accepts .lastPlay x
  watchedUndated : ∀ n, 0 < n → lib.Accepts .plays n → lib.Asks .addition →
    lib.Accepts .addition 0 → ∀ y, ¬ lib.Accepts .lastPlay y

/-- Under `OR`, the fallbacks do no harm.  If items that nobody watched are not wanted anyhow, every
number of days does for one of the dates, or nothing is asked about the last play and zero days do
not for the addition; and if some items that somebody watched are not, zero days do not for the
addition, and days do for it if they do for the last play. -/
structure KeepsOr : Prop where
  unwatched : ¬ lib.Accepts .plays 0 → lib.Asks .lastPlay →
    ∀ x, lib.Accepts .addition x ∨ lib.Accepts .lastPlay x
  unwatchedUndated : ¬ lib.Accepts .plays 0 → ¬ lib.Asks .lastPlay → ¬ lib.Accepts .addition 0
  watched : ∀ n, 0 < n → ¬ lib.Accepts .plays n →
    ∀ x, lib.Accepts .lastPlay x → lib.Accepts .addition x
  watchedUndated : ∀ n, 0 < n → ¬ lib.Accepts .plays n → ¬ lib.Accepts .addition 0

/-- No item meets the conditions. -/
def Unmet : Prop :=
  match lib.logic with
  | .and => ∀ x, lib.Accepts .addition x → ¬ lib.Accepts .plays 0 ∧
      ∀ n, 0 < n → lib.Accepts .plays n → ∀ y, ¬ lib.Accepts .lastPlay y
  | .or => ¬ lib.Asks .lastPlay ∧ (∀ x, ¬ lib.Accepts .addition x) ∧
      ∀ n, 0 ≤ n → ¬ lib.Accepts .plays n

/-- The lists let nobody pass. -/
def NobodyPasses : Prop :=
  HasList lib .userInclude ∧ ∀ user ∈ filteredUsers .userInclude lib.seerrConditions,
    user ∈ filteredUsers .userExclude lib.seerrConditions

/-- The migration keeps the meaning of the library.  A library that is not enabled keeps it if it
selects nothing, since its rule never fires.  Under `OR` there may be no list; under `AND` an
exclude list alone, which the rule fails for items without a requester, does no harm if the
conditions are never met. -/
def KeepsMeaning : Prop :=
  lib.conditions = [] ∨
    lib.enabled = false ∧ (lib.NobodyPasses ∨ lib.Unmet) ∨
    lib.enabled = true ∧
      match lib.logic with
      | .and => lib.NobodyPasses ∨
          lib.KeepsAnd ∧ (HasList lib .userExclude → ¬ HasList lib .userInclude → lib.Unmet)
      | .or => ¬ HasList lib .userInclude ∧ ¬ HasList lib .userExclude ∧ lib.KeepsOr

end LibraryRules

/-! ### The conditions, by what they are about -/

section Conditions

variable {lib : LibraryRules} {c : LegacyCondition} {s : Subject} {v : Sight} {x : ℤ}

theorem accepts_and_iff (hlogic : lib.logic = .and) :
    lib.Accepts s x ↔ ∀ c ∈ lib.conditions, c.subject = s → c.Accepts x := by
  simp only [LibraryRules.Accepts, hlogic, RuleOperator.combines, List.mem_filter,
    decide_eq_true_eq, and_imp]

theorem accepts_or_iff (hlogic : lib.logic = .or) :
    lib.Accepts s x ↔ ∃ c ∈ lib.conditions, c.subject = s ∧ c.Accepts x := by
  simp only [LibraryRules.Accepts, hlogic, RuleOperator.combines, List.mem_filter,
    decide_eq_true_eq, and_assoc]

/-- Under `AND`, every number does where nothing is asked. -/
theorem accepts_of_not_asks (hlogic : lib.logic = .and) (h : ¬ lib.Asks s) : lib.Accepts s x :=
  (accepts_and_iff hlogic).2 fun c hc hs => absurd ⟨c, hc, hs⟩ h

/-- A known number does, or nothing is asked. -/
theorem asks_some_iff (hlogic : lib.logic = .and) :
    (lib.Asks s → ∃ y, some x = some y ∧ lib.Accepts s y) ↔ lib.Accepts s x := by
  constructor
  · intro h
    by_cases hasks : lib.Asks s
    · obtain ⟨y, hy, haccepts⟩ := h hasks
      obtain rfl := Option.some.inj hy
      exact haccepts
    · exact accepts_of_not_asks hlogic hasks
  · exact fun haccepts _ => ⟨x, rfl, haccepts⟩

theorem asks_none_iff : (lib.Asks s → ∃ y, none = some y ∧ lib.Accepts s y) ↔ ¬ lib.Asks s := by
  refine ⟨fun h hasks => ?_, fun h hasks => absurd hasks h⟩
  obtain ⟨y, hy, -⟩ := h hasks
  cases hy

/-- Under `OR`, none does. -/
theorem asks_of_accepts (hlogic : lib.logic = .or) (h : lib.Accepts s x) : lib.Asks s := by
  obtain ⟨c, hc, hs, -⟩ := (accepts_or_iff hlogic).1 h
  exact ⟨c, hc, hs⟩

theorem selects_addition (hs : c.subject = .addition) :
    c.Selects v ↔ ∃ x, v.added = some x ∧ c.Accepts x := by
  simp only [LegacyCondition.Selects, hs]

theorem selects_plays (hs : c.subject = .plays) : c.Selects v ↔ c.Accepts v.plays := by
  simp only [LegacyCondition.Selects, hs]

theorem selects_lastPlay (hs : c.subject = .lastPlay) :
    c.Selects v ↔ v.plays = 0 ∨ ∃ y, v.lastPlay = some y ∧ c.Accepts y := by
  simp only [LegacyCondition.Selects, hs]

/-- The conditions about one thing are about one number, if it is known. -/
theorem forall_known_iff {known : Option ℤ} :
    (∀ c ∈ lib.conditions, c.subject = s → ∃ x, known = some x ∧ c.Accepts x) ↔
      (lib.Asks s → ∃ x, known = some x ∧
        ∀ c ∈ lib.conditions, c.subject = s → c.Accepts x) := by
  constructor
  · rintro h ⟨c, hc, hs⟩
    obtain ⟨x, hx, -⟩ := h c hc hs
    refine ⟨x, hx, fun c' hc' hs' => ?_⟩
    obtain ⟨x', hx', haccepts⟩ := h c' hc' hs'
    obtain rfl := Option.some.inj (hx.symm.trans hx')
    exact haccepts
  · intro h c hc hs
    obtain ⟨x, hx, haccepts⟩ := h ⟨c, hc, hs⟩
    exact ⟨x, hx, haccepts c hc hs⟩

/-- All conditions of a library select. -/
theorem forall_selects_iff (hlogic : lib.logic = .and) :
    (∀ c ∈ lib.conditions, c.Selects v) ↔ lib.Accepts .plays v.plays ∧
      (lib.Asks .addition → ∃ x, v.added = some x ∧ lib.Accepts .addition x) ∧
      (v.plays ≠ 0 → lib.Asks .lastPlay → ∃ y, v.lastPlay = some y ∧ lib.Accepts .lastPlay y) := by
  simp only [accepts_and_iff hlogic, ← forall_known_iff]
  constructor
  · intro h
    exact ⟨fun c hc hs => (selects_plays hs).1 (h c hc),
      fun c hc hs => (selects_addition hs).1 (h c hc),
      fun hseen c hc hs => ((selects_lastPlay hs).1 (h c hc)).resolve_left hseen⟩
  · rintro ⟨hplays, haddition, hlastPlay⟩ c hc
    cases hs : c.subject with
    | plays => exact (selects_plays hs).2 (hplays c hc hs)
    | addition => exact (selects_addition hs).2 (haddition c hc hs)
    | lastPlay =>
        refine (selects_lastPlay hs).2 (or_iff_not_imp_left.2 fun hseen => ?_)
        exact hlastPlay hseen c hc hs

/-- All conditions of the rule hold. -/
theorem forall_fires_iff (hlogic : lib.logic = .and) :
    (∀ c ∈ lib.conditions, c.Fires v) ↔ lib.Accepts .plays v.plays ∧
      lib.Accepts .addition (v.added.getD 0) ∧
      lib.Accepts .lastPlay (v.lastPlay.getD (v.added.getD 0)) := by
  simp only [accepts_and_iff hlogic, ← forall_and]
  refine forall_congr' fun c => ?_
  cases hs : c.subject <;> simp [LegacyCondition.Fires, hs]

/-- Some condition of a library selects. -/
theorem exists_selects_iff (hlogic : lib.logic = .or) :
    (∃ c ∈ lib.conditions, c.Selects v) ↔ lib.Accepts .plays v.plays ∨
      (∃ x, v.added = some x ∧ lib.Accepts .addition x) ∨
      v.plays = 0 ∧ lib.Asks .lastPlay ∨ ∃ y, v.lastPlay = some y ∧ lib.Accepts .lastPlay y := by
  simp only [accepts_or_iff hlogic]
  constructor
  · rintro ⟨c, hc, hselects⟩
    cases hs : c.subject with
    | plays => exact .inl ⟨c, hc, hs, (selects_plays hs).1 hselects⟩
    | addition =>
        obtain ⟨x, hx, haccepts⟩ := (selects_addition hs).1 hselects
        exact .inr (.inl ⟨x, hx, c, hc, hs, haccepts⟩)
    | lastPlay =>
        rcases (selects_lastPlay hs).1 hselects with hzero | ⟨y, hy, haccepts⟩
        · exact .inr (.inr (.inl ⟨hzero, c, hc, hs⟩))
        · exact .inr (.inr (.inr ⟨y, hy, c, hc, hs, haccepts⟩))
  · rintro (⟨c, hc, hs, haccepts⟩ | ⟨x, hx, c, hc, hs, haccepts⟩ | ⟨hzero, c, hc, hs⟩ |
      ⟨y, hy, c, hc, hs, haccepts⟩)
    · exact ⟨c, hc, (selects_plays hs).2 haccepts⟩
    · exact ⟨c, hc, (selects_addition hs).2 ⟨x, hx, haccepts⟩⟩
    · exact ⟨c, hc, (selects_lastPlay hs).2 (.inl hzero)⟩
    · exact ⟨c, hc, (selects_lastPlay hs).2 (.inr ⟨y, hy, haccepts⟩)⟩

/-- Some condition of the rule holds. -/
theorem exists_fires_iff (hlogic : lib.logic = .or) :
    (∃ c ∈ lib.conditions, c.Fires v) ↔ lib.Accepts .plays v.plays ∨
      lib.Accepts .addition (v.added.getD 0) ∨
      lib.Accepts .lastPlay (v.lastPlay.getD (v.added.getD 0)) := by
  simp only [accepts_or_iff hlogic, ← exists_or, ← and_or_left]
  refine exists_congr fun c => ?_
  cases hs : c.subject <;> simp [LegacyCondition.Fires, hs]

end Conditions

/-! ### What can be seen -/

namespace Sight

/-- An item that nobody watched. -/
def unwatched (added : Option ℤ) : Sight where
  added := added
  plays := 0
  lastPlay := none
  nonneg := le_rfl
  lastPlay_eq _ := rfl

/-- An item that somebody watched. -/
def watched (added : Option ℤ) (n : ℤ) (hn : 0 < n) (lastPlay : Option ℤ) : Sight where
  added := added
  plays := n
  lastPlay := lastPlay
  nonneg := hn.le
  lastPlay_eq hzero := absurd hzero hn.ne'

theorem eq_unwatched_or_watched (v : Sight) :
    (∃ added, v = unwatched added) ∨ ∃ added n hn lastPlay, v = watched added n hn lastPlay := by
  rcases v with ⟨added, n, lastPlay, hnonneg, hzero⟩
  rcases hnonneg.eq_or_lt with hn | hn
  · obtain rfl := hzero hn.symm
    subst hn
    exact .inl ⟨added, rfl⟩
  · exact .inr ⟨added, n, hn, lastPlay, rfl⟩

end Sight

/-- The instant that many days before the beginning of 1970. -/
def daysBefore (days : ℤ) : Instant := -(days * 86400000000)

theorem daysBetween_daysBefore (days : ℤ) : daysBetween 0 (daysBefore days) = days := by
  rw [daysBetween, daysBefore, zero_sub, neg_neg]
  exact Int.mul_ediv_cancel _ (by decide)

theorem map_daysBetween (days : Option ℤ) :
    (days.map daysBefore).map (daysBetween 0) = days := by
  cases days with
  | none => rfl
  | some n => exact congrArg some (daysBetween_daysBefore n)

/-- **Whatever the conditions can see, some item looks like that.** -/
theorem exists_sight (v : Sight) : ∃ addedDate users,
    (aggregateUserData_wellFormed .absent users).sight 0 addedDate = v := by
  obtain ⟨added, rfl⟩ | ⟨added, n, hn, lastPlay, rfl⟩ := v.eq_unwatched_or_watched
  · refine ⟨added.map daysBefore, [], ?_⟩
    simp only [WatchState.WellFormed.sight, map_daysBetween]
    rfl
  · let played : DateText := lastPlay.elim .absent fun days => .at (daysBefore days)
    have hplayed : played.parse = lastPlay.map daysBefore := by
      cases lastPlay <;> rfl
    have hstate : aggregateUserData .absent [{ playCount := n, lastPlayedDate := played }] =
        ⟨n, false, lastPlay.map daysBefore⟩ := by
      have hlast : ({ playCount := n, lastPlayedDate := played } : UserData).lastPlay .absent =
          lastPlay.map daysBefore := by
        cases lastPlay <;> rfl
      have hlater : laterPlay none (lastPlay.map daysBefore) = lastPlay.map daysBefore := by
        cases lastPlay <;> rfl
      simp [aggregateUserData, addUserData, hn, hlast, hlater, UserData.effectiveCount, hn.le]
    refine ⟨added.map daysBefore, [{ playCount := n, lastPlayedDate := played }], ?_⟩
    simp only [WatchState.WellFormed.sight, Sight.watched, hstate, map_daysBetween]

/-! ### The conditions without the lists -/

section Numbers

variable {lib : LibraryRules}

open Sight

/-- **Under `AND`**, the rule and the library agree if and only if the fallbacks do no harm. -/
theorem keepsAnd_iff (hlogic : lib.logic = .and) :
    (∀ v, (∀ c ∈ lib.conditions, c.Fires v) ↔ ∀ c ∈ lib.conditions, c.Selects v) ↔
      lib.KeepsAnd := by
  simp only [forall_fires_iff hlogic, forall_selects_iff hlogic]
  constructor
  · intro h
    have hunwatched : lib.Accepts .plays 0 → ∀ x, lib.Accepts .addition x →
        lib.Accepts .lastPlay x := fun hplays x hx =>
      ((h (unwatched (some x))).2
        ⟨hplays, fun _ => ⟨x, rfl, hx⟩, fun hseen => absurd rfl hseen⟩).2.2
    constructor
    · exact hunwatched
    · intro hplays hasks hzero
      obtain ⟨x, hx, -⟩ := ((h (unwatched none)).1
        ⟨hplays, hzero, hunwatched hplays 0 hzero⟩).2.1 hasks
      cases hx
    · intro n hn hplays hasks x hadded hlast
      obtain ⟨y, hy, -⟩ := ((h (watched (some x) n hn none)).1
        ⟨hplays, hadded, hlast⟩).2.2 hn.ne' hasks
      cases hy
    · intro n hn hplays hasks hzero y hlast
      obtain ⟨x, hx, -⟩ := ((h (watched none n hn (some y))).1 ⟨hplays, hzero, hlast⟩).2.1 hasks
      cases hx
  · intro h v
    obtain ⟨added, rfl⟩ | ⟨added, n, hn, lastPlay, rfl⟩ := v.eq_unwatched_or_watched
    · refine and_congr_right fun hplays => ?_
      simp only [unwatched, ne_eq, not_true, false_imp_iff, and_true, Option.getD_none]
      cases added with
      | none =>
          rw [asks_none_iff, Option.getD_none]
          refine ⟨fun hdays hasks => h.unwatchedUndated hplays hasks hdays.1, fun hasks => ?_⟩
          have hzero : lib.Accepts .addition 0 := accepts_of_not_asks hlogic hasks
          exact ⟨hzero, h.unwatched hplays 0 hzero⟩
      | some x =>
          rw [asks_some_iff hlogic, Option.getD_some]
          exact ⟨And.left, fun hadded => ⟨hadded, h.unwatched hplays x hadded⟩⟩
    · refine and_congr_right fun hplays => ?_
      simp only [watched, ne_eq, hn.ne', not_false_eq_true, true_imp_iff]
      cases added with
      | none =>
          rw [asks_none_iff, Option.getD_none]
          cases lastPlay with
          | none =>
              rw [asks_none_iff, Option.getD_none]
              constructor
              · rintro ⟨hzero, hlast⟩
                exact ⟨fun hasks => h.watchedUndated n hn hplays hasks hzero 0 hlast,
                  fun hasks => h.watched n hn hplays hasks 0 hzero hlast⟩
              · rintro ⟨hadded, hlast⟩
                exact ⟨accepts_of_not_asks hlogic hadded, accepts_of_not_asks hlogic hlast⟩
          | some y =>
              rw [asks_some_iff hlogic, Option.getD_some]
              refine and_congr_left fun hlast => ⟨fun hzero hasks => ?_, accepts_of_not_asks hlogic⟩
              exact h.watchedUndated n hn hplays hasks hzero y hlast
      | some x =>
          rw [asks_some_iff hlogic, Option.getD_some]
          refine and_congr_right fun hadded => ?_
          cases lastPlay with
          | none =>
              rw [asks_none_iff, Option.getD_none]
              exact ⟨fun hlast hasks => h.watched n hn hplays hasks x hadded hlast,
                accepts_of_not_asks hlogic⟩
          | some y => rw [asks_some_iff hlogic, Option.getD_some]

/-- **Under `OR`**, so they do. -/
theorem keepsOr_iff (hlogic : lib.logic = .or) :
    (∀ v, (∃ c ∈ lib.conditions, c.Fires v) ↔ ∃ c ∈ lib.conditions, c.Selects v) ↔
      lib.KeepsOr := by
  simp only [exists_fires_iff hlogic, exists_selects_iff hlogic]
  constructor
  · intro h
    constructor
    · intro hplays hasks x
      exact ((h (unwatched (some x))).2 (.inr (.inr (.inl ⟨rfl, hasks⟩)))).resolve_left hplays
    · intro hplays hasks hzero
      have hselects := (h (unwatched none)).1 (.inr (.inl hzero))
      simp [unwatched, hplays, hasks] at hselects
    · intro n hn hplays x hlast
      have hselects := (h (watched (some x) n hn none)).1 (.inr (.inr hlast))
      simpa [watched, hplays, hn.ne'] using hselects
    · intro n hn hplays hzero
      have hselects := (h (watched none n hn none)).1 (.inr (.inl hzero))
      simp [watched, hplays, hn.ne'] at hselects
  · intro h v
    obtain ⟨added, rfl⟩ | ⟨added, n, hn, lastPlay, rfl⟩ := v.eq_unwatched_or_watched
    · by_cases hplays : lib.Accepts .plays 0
      · exact iff_of_true (.inl hplays) (.inl hplays)
      · simp only [unwatched, hplays, false_or, true_and, Option.getD_none, reduceCtorEq, false_and,
          exists_false, or_false]
        by_cases hasks : lib.Asks .lastPlay
        · exact iff_of_true (h.unwatched hplays hasks _) (.inr hasks)
        · have hlast : ∀ x, ¬ lib.Accepts .lastPlay x :=
            fun x hx => hasks (asks_of_accepts hlogic hx)
          cases added with
          | none => simpa [hlast, hasks] using h.unwatchedUndated hplays hasks
          | some x => simp [hlast, hasks]
    · by_cases hplays : lib.Accepts .plays n
      · exact iff_of_true (.inl hplays) (.inl hplays)
      · have hzero : ¬ lib.Accepts .addition 0 := h.watchedUndated n hn hplays
        have hdays : ∀ x, lib.Accepts .lastPlay x → lib.Accepts .addition x :=
          h.watched n hn hplays
        simp only [watched, hplays, hn.ne', false_or, false_and]
        cases added with
        | none =>
            cases lastPlay with
            | none => simpa [hzero] using mt (hdays 0) hzero
            | some y => simp [hzero]
        | some x =>
            cases lastPlay with
            | none => simpa using hdays x
            | some y => simp

/-- The conditions are never met. -/
theorem unmet_iff :
    (∀ v, ¬ lib.logic.combines lib.conditions (·.Selects v)) ↔ lib.Unmet := by
  rw [LibraryRules.Unmet]
  cases hlogic : lib.logic with
  | and =>
      simp only [RuleOperator.combines, forall_selects_iff hlogic]
      constructor
      · intro h x hadded
        refine ⟨fun hplays => ?_, fun n hn hplays y hlast => ?_⟩
        · exact h (unwatched (some x))
            ⟨hplays, fun _ => ⟨x, rfl, hadded⟩, fun hseen => absurd rfl hseen⟩
        · exact h (watched (some x) n hn (some y))
            ⟨hplays, fun _ => ⟨x, rfl, hadded⟩, fun _ _ => ⟨y, rfl, hlast⟩⟩
      · rintro h v ⟨hplays, hadded, hlast⟩
        obtain ⟨x, hx⟩ : ∃ x, lib.Accepts .addition x := by
          by_cases hasks : lib.Asks .addition
          · exact (hadded hasks).imp fun x hx => hx.2
          · exact ⟨0, accepts_of_not_asks hlogic hasks⟩
        obtain ⟨hunwatched, hwatched⟩ := h x hx
        obtain ⟨added, rfl⟩ | ⟨added, n, hn, lastPlay, rfl⟩ := v.eq_unwatched_or_watched
        · exact hunwatched hplays
        · by_cases hasks : lib.Asks .lastPlay
          · obtain ⟨y, -, hy⟩ := hlast hn.ne' hasks
            exact hwatched n hn hplays y hy
          · exact hwatched n hn hplays 0 (accepts_of_not_asks hlogic hasks)
  | or =>
      simp only [RuleOperator.combines, exists_selects_iff hlogic]
      constructor
      · intro h
        refine ⟨fun hasks => ?_, fun x hx => ?_, fun n hn hplays => ?_⟩
        · exact h (unwatched none) (.inr (.inr (.inl ⟨rfl, hasks⟩)))
        · exact h (unwatched (some x)) (.inr (.inl ⟨x, rfl, hx⟩))
        · rcases hn.eq_or_lt with rfl | hn
          · exact h (unwatched none) (.inl hplays)
          · exact h (watched none n hn none) (.inl hplays)
      · rintro ⟨hasks, hadded, hplays⟩ v (hn | ⟨x, -, hx⟩ | ⟨-, hasked⟩ | ⟨y, -, hy⟩)
        · exact hplays v.plays v.nonneg hn
        · exact hadded x hx
        · exact hasks hasked
        · exact hasks (asks_of_accepts hlogic hy)

end Numbers

/-! ### The lists -/

section Lists

variable {lib : LibraryRules}

/-- Somebody is not on a list. -/
theorem exists_notMem_filteredUsers (type : SeerrFilter) (conditions : List SeerrCondition) :
    ∃ user, user ∉ filteredUsers type conditions := by
  obtain ⟨user, huser⟩ := (filteredUsers type conditions).toFinset.finite_toSet.exists_notMem
  exact ⟨user, by simpa using huser⟩

/-- Somebody passes the lists, unless they let nobody pass. -/
theorem exists_passes (h : ¬ lib.NobodyPasses) : ∃ user, Passes lib (some user) := by
  by_cases hlist : HasList lib .userInclude
  · have hexists : ∃ user ∈ filteredUsers .userInclude lib.seerrConditions,
        user ∉ filteredUsers .userExclude lib.seerrConditions := by
      by_contra hall
      push Not at hall
      exact h ⟨hlist, hall⟩
    obtain ⟨user, hincluded, hexcluded⟩ := hexists
    exact ⟨user, fun _ => by simpa [Included, inUsers] using hincluded,
      by simpa [Excluded, inUsers] using hexcluded⟩
  · obtain ⟨user, huser⟩ := exists_notMem_filteredUsers .userExclude lib.seerrConditions
    exact ⟨user, fun hasked => absurd hasked hlist, by simpa [Excluded, inUsers] using huser⟩

theorem not_passes_of_nobodyPasses (h : lib.NobodyPasses) (requester : Option ℤ) :
    ¬ Passes lib requester := by
  rintro ⟨hincluded, hexcluded⟩
  obtain ⟨user, rfl, hmem⟩ : ∃ user, requester = some user ∧
      user ∈ filteredUsers .userInclude lib.seerrConditions := by
    simpa [Included, inUsers, Option.any_eq_true] using hincluded h.1
  exact hexcluded (by simpa [Excluded, inUsers] using h.2 user hmem)

/-- The lists, as the rule has them under `AND`: an exclude list asks for a requester. -/
theorem rulePasses_iff {requester : Option ℤ} :
    ((HasList lib .userInclude → Included lib requester) ∧
        (HasList lib .userExclude → requester ≠ none ∧ ¬ Excluded lib requester)) ↔
      Passes lib requester ∧ (HasList lib .userExclude → requester ≠ none) := by
  constructor
  · rintro ⟨hincluded, hexcluded⟩
    exact ⟨⟨hincluded, fun h => (hexcluded (hasList_of_excluded h)).2 h⟩,
      fun hlist => (hexcluded hlist).1⟩
  · rintro ⟨⟨hincluded, hexcluded⟩, hknown⟩
    exact ⟨hincluded, fun hlist => ⟨hknown hlist, hexcluded⟩⟩

theorem not_included_none : ¬ Included lib none := by
  simp [Included, inUsers]

theorem not_excluded_none : ¬ Excluded lib none := by
  simp [Excluded, inUsers]

/-- A library that is not enabled. -/
theorem neverSelects_iff :
    (∀ v requester, ¬ lib.Selects v requester) ↔
      lib.NobodyPasses ∨ lib.Unmet := by
  constructor
  · intro h
    refine or_iff_not_imp_left.2 fun hpasses => unmet_iff.1 fun v hmeets => ?_
    obtain ⟨user, huser⟩ := exists_passes hpasses
    exact h v (some user) ⟨hmeets, huser⟩
  · rintro (hnobody | hunmet) v requester ⟨hmeets, hpasses⟩
    · exact not_passes_of_nobodyPasses hnobody requester hpasses
    · exact unmet_iff.2 hunmet v hmeets

/-- A library under `AND`. -/
theorem agrees_and_iff (hlogic : lib.logic = .and) (henabled : lib.enabled = true) :
    (∀ v requester, lib.Fires v requester ↔ lib.Selects v requester) ↔
      lib.NobodyPasses ∨
        lib.KeepsAnd ∧ (HasList lib .userExclude → ¬ HasList lib .userInclude → lib.Unmet) := by
  have hunmet : lib.Unmet ↔ ∀ v, ¬ ∀ c ∈ lib.conditions, c.Selects v := by
    rw [← unmet_iff, hlogic]
    rfl
  simp only [LibraryRules.Fires, LibraryRules.Selects, hlogic, henabled, true_and,
    RuleOperator.combines, rulePasses_iff]
  constructor
  · intro h
    refine or_iff_not_imp_left.2 fun hpasses => ?_
    obtain ⟨user, huser⟩ := exists_passes hpasses
    refine ⟨(keepsAnd_iff hlogic).1 fun v => ?_, fun hexclude hinclude => ?_⟩
    · simpa [huser] using h v (some user)
    · refine hunmet.2 fun v hselects => ?_
      have hnone : Passes lib none := ⟨fun hlist => absurd hlist hinclude, not_excluded_none⟩
      exact ((h v none).2 ⟨hselects, hnone⟩).2.2 hexclude rfl
  · rintro (hnobody | ⟨hkeeps, hnever⟩) v requester
    · have hpasses := not_passes_of_nobodyPasses hnobody requester
      exact iff_of_false (fun h => hpasses h.2.1) (fun h => hpasses h.2)
    · rw [(keepsAnd_iff hlogic).2 hkeeps v]
      refine and_congr_right fun hselects => and_iff_left_of_imp fun hpasses hexclude => ?_
      rintro rfl
      by_cases hinclude : HasList lib .userInclude
      · exact not_included_none (hpasses.1 hinclude)
      · exact hunmet.1 (hnever hexclude hinclude) v hselects

/-- Where both dates are known, the rule and the conditions agree under `OR`. -/
theorem exists_fires_iff_dated (hlogic : lib.logic = .or) :
    (∃ c ∈ lib.conditions, c.Fires (.watched (some 0) 1 one_pos (some 0))) ↔
      ∃ c ∈ lib.conditions, c.Selects (.watched (some 0) 1 one_pos (some 0)) := by
  simp [exists_fires_iff hlogic, exists_selects_iff hlogic, Sight.watched]

/-- A library under `OR`. -/
theorem agrees_or_iff (hlogic : lib.logic = .or) (henabled : lib.enabled = true) :
    (∀ v requester, lib.Fires v requester ↔ lib.Selects v requester) ↔
      ¬ HasList lib .userInclude ∧ ¬ HasList lib .userExclude ∧ lib.KeepsOr := by
  simp only [LibraryRules.Fires, LibraryRules.Selects, hlogic, henabled, true_and,
    RuleOperator.combines]
  constructor
  · intro h
    -- a requester that a list selects, and one that it rejects
    have hdrifts : ∀ selected rejected, (Included lib selected ∨
        HasList lib .userExclude ∧ selected ≠ none ∧ ¬ Excluded lib selected) →
          ¬ Passes lib rejected → False := by
      intro selected rejected hselected hrejected
      have hselects := ((h (.watched (some 0) 1 one_pos (some 0)) selected).1 (.inr hselected)).1
      exact hrejected ((h _ rejected).1 (.inl ((exists_fires_iff_dated hlogic).2 hselects))).2
    have hinclude : ¬ HasList lib .userInclude := by
      intro hlist
      obtain ⟨user, huser⟩ := List.exists_mem_of_ne_nil _ hlist
      obtain ⟨other, hother⟩ := exists_notMem_filteredUsers .userInclude lib.seerrConditions
      refine hdrifts (some user) (some other) (.inl (by simpa [Included, inUsers] using huser)) ?_
      exact fun hpasses => hother (by simpa [Included, inUsers] using hpasses.1 hlist)
    have hexclude : ¬ HasList lib .userExclude := by
      intro hlist
      obtain ⟨user, huser⟩ := List.exists_mem_of_ne_nil _ hlist
      obtain ⟨other, hother⟩ := exists_notMem_filteredUsers .userExclude lib.seerrConditions
      refine hdrifts (some other) (some user) (.inr ⟨hlist, Option.some_ne_none _, ?_⟩) ?_
      · simpa [Excluded, inUsers] using hother
      · exact fun hpasses => hpasses.2 (by simpa [Excluded, inUsers] using huser)
    refine ⟨hinclude, hexclude, (keepsOr_iff hlogic).1 fun v => ?_⟩
    simpa [hinclude, hexclude, Passes, not_included_none, not_excluded_none] using h v none
  · rintro ⟨hinclude, hexclude, hkeeps⟩ v requester
    have hincluded : ¬ Included lib requester := fun h => hinclude (hasList_of_included h)
    have hpasses : Passes lib requester :=
      ⟨fun hlist => absurd hlist hinclude, fun h => hexclude (hasList_of_excluded h)⟩
    rw [(keepsOr_iff hlogic).2 hkeeps v]
    simp [hincluded, hexclude, hpasses]

end Lists

/-! ### The library -/

section Library

variable {lib : LibraryRules}

/-- The items of a library are what its conditions can see. -/
theorem forall_items_iff (hconditions : lib.conditions ≠ []) :
    (∀ (now : Instant) (item : ItemFacts) (addedDate : Option Instant) (logged : DateText)
        (users : List UserData) (seerrUserId : Option ℤ),
      migratedFires lib now item addedDate (aggregateUserData logged users) seerrUserId = true ↔
        legacySelects lib now addedDate (aggregateUserData logged users) seerrUserId = true) ↔
      ∀ v requester, lib.Fires v requester ↔ lib.Selects v requester := by
  constructor
  · intro h v requester
    obtain ⟨addedDate, users, rfl⟩ := exists_sight v
    have hst := aggregateUserData_wellFormed .absent users
    rw [← legacySelects_iff hst hconditions, ← migratedFires_iff hst hconditions]
    exact h 0 {} addedDate .absent users requester
  · intro h now item addedDate logged users requester
    have hst := aggregateUserData_wellFormed logged users
    rw [migratedFires_iff hst hconditions, legacySelects_iff hst hconditions]
    exact h (hst.sight now addedDate) requester

/-- **Exactly which libraries keep their meaning**: those whose rule fires for the items that the
library selects, whatever their dates, the plays of the users and the requester are. -/
theorem migratedFires_iff_legacySelects_iff :
    (∀ (now : Instant) (item : ItemFacts) (addedDate : Option Instant) (logged : DateText)
        (users : List UserData) (seerrUserId : Option ℤ),
      migratedFires lib now item addedDate (aggregateUserData logged users) seerrUserId = true ↔
        legacySelects lib now addedDate (aggregateUserData logged users) seerrUserId = true) ↔
      lib.KeepsMeaning := by
  by_cases hconditions : lib.conditions = []
  · refine iff_of_true (fun now item addedDate logged users requester => ?_) (.inl hconditions)
    refine iff_of_false ?_ ?_
    · simp [migratedFires, migratedRule, hconditions]
    · simp [legacySelects, evaluateConditions, hconditions]
  · rw [forall_items_iff hconditions]
    simp only [LibraryRules.KeepsMeaning, hconditions, false_or]
    cases henabled : lib.enabled with
    | false => simpa [LibraryRules.Fires, henabled] using neverSelects_iff
    | true =>
        simp only [true_and, Bool.true_eq_false, false_and, false_or]
        cases hlogic : lib.logic with
        | and => exact agrees_and_iff hlogic henabled
        | or => exact agrees_or_iff hlogic henabled

/-- Under `OR` the include list selects by itself: an item added today that the listed user
requested matches the rule, although the library waits for a year. -/
theorem not_migratedFires_iff_included :
    ¬ ∀ (lib : LibraryRules) (now : Instant) (item : ItemFacts) (addedDate : Option Instant)
      (logged : DateText) (users : List UserData) (seerrUserId : Option ℤ),
      (migratedFires lib now item addedDate (aggregateUserData logged users) seerrUserId = true ↔
        legacySelects lib now addedDate (aggregateUserData logged users) seerrUserId = true) := by
  intro hclaim
  have hagree := hclaim
    { id := "movies", name := "Movies", logic := .or
      conditions := [{ field := .daysSinceAdded, op := .gt, value := 365 }]
      seerrConditions := [{ type := .userInclude, userId := 5 }] }
    0 {} (some 0) .absent [{}] (some 5)
  exact absurd (hagree.1 (by decide)) (by decide)

end Library

end Hygie
