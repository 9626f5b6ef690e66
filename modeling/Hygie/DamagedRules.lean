/-
**Damaged rules.**

A row of `expert_rules` whose JSON is damaged is loaded as a rule that says something else.  A group
that cannot be read is left out, so that a rule that wants all of its groups wants fewer of them,
and a selection of libraries that cannot be read is taken for none, which means all libraries.

Read conservatively, a group that cannot be read matches nothing, and a selection that cannot be
read has no libraries.

Main definitions:

* `RuleRow.fires` — the rule that is loaded from a row applies to a library and matches an item;
* `RuleRow.firesConservatively` — so does the row in the conservative reading;
* `RuleRow.Intact`, `RuleRow.RestMatches` — undamaged rows, and what is left of a damaged one.

Main results:

* `fires_iff` — **a rule fires just when what can be read of it says so**;
* `firesConservatively_of_fires_iff` — **when the two readings agree**.
-/

import Hygie.StoredRules
import Mathlib.Data.List.ReduceOption

set_option relaxedAutoImplicit false
set_option autoImplicit false

namespace Hygie

/-! ### The two readings -/

/-- The rule that is loaded from a row fires: it decides about the item of a library. -/
def RuleRow.fires (row : RuleRow) (libraryId : Option String) (item : ItemData) : Bool :=
  match getExpertRules true [row] with
  | some rules => (evaluateExpertRules (rules.map (·.toExpertRule)) item libraryId).1.isSome
  | none => false

/-- The groups of a row, with nothing for one that cannot be read. -/
def RuleRow.readings (row : RuleRow) : List (Option ConditionGroup) :=
  groupReadings row.operator row.conditions

/-- The groups that can be read. -/
def RuleRow.readable (row : RuleRow) : List ConditionGroup := row.readings.reduceOption

/-- A group that cannot be read matches nothing. -/
def readingMatches (item : ItemData) : Option ConditionGroup → Bool
  | some group => evaluateGroup group item
  | none => false

/-- The legacy column: no library there, or none to compare with, does not restrict the rule. -/
def RuleRow.legacyScope (row : RuleRow) (libraryId : Option String) : Bool :=
  match row.libraryId, libraryId with
  | some ref, some id => ref = id
  | _, _ => true

/-- The libraries of a row; a selection that cannot be read has none. -/
def RuleRow.targets (row : RuleRow) (libraryId : Option String) : Bool :=
  match row.libraryIds with
  | none | some .empty | some (.json .null) => row.legacyScope libraryId
  | some (.json (.arr ids)) =>
      match ids.mapM Json.asStr, libraryId with
      | some ids, some id => id ∈ ids
      | _, _ => false
  | some _ => false

/-- The conservative reading of the groups. -/
def RuleRow.matchesConservatively (row : RuleRow) (item : ItemData) : Bool :=
  match RuleOperator.ofName row.operator with
  | some .and => !row.readings.isEmpty && row.readings.all (readingMatches item)
  | some .or => row.readings.any (readingMatches item)
  | none => false

/-- The conservative reading of a row. -/
def RuleRow.firesConservatively (row : RuleRow) (libraryId : Option String) (item : ItemData) :
    Bool :=
  row.enabled = 1 && row.targets libraryId && row.matchesConservatively item

/-! ### Damage -/

/-- The selection of libraries cannot be read. -/
def RuleRow.ScopeLost (row : RuleRow) : Prop := row.libraryIds = some .damaged

/-- A group of a rule that wants all of its groups cannot be read. -/
def RuleRow.GroupLost (row : RuleRow) : Prop :=
  RuleOperator.ofName row.operator = some .and ∧ none ∈ row.readings

/-- Nothing is lost that would restrict the rule. -/
def RuleRow.Intact (row : RuleRow) : Prop := ¬ row.ScopeLost ∧ ¬ row.GroupLost

/-- What can be read of a row matches: the groups that can be read, and the legacy column in place
of a selection that cannot. -/
structure RuleRow.RestMatches (row : RuleRow) (libraryId : Option String) (item : ItemData) :
    Prop where
  enabled : row.enabled = 1
  action : (RuleAction.ofName row.action).isSome = true
  scope : row.targets libraryId = true ∨ row.ScopeLost ∧ row.legacyScope libraryId = true
  readable : row.readable ≠ []
  groups : ∃ operator, RuleOperator.ofName row.operator = some operator ∧
    operator.combines row.readable fun group =>
      group.operator.combines group.conditions fun c => evaluateCondition c item = true

variable {row : RuleRow} {libraryId : Option String} {item : ItemData}

theorem evaluateGroup_combines {group : ConditionGroup} : evaluateGroup group item = true ↔
    group.operator.combines group.conditions fun c => evaluateCondition c item = true := by
  rcases group with ⟨conditions, _ | _⟩
  · exact List.all_eq_true
  · exact List.any_eq_true

/-! ### What is loaded -/

/-- The rule of a row decides where it applies and matches. -/
theorem fires_eq : row.fires libraryId item = true ↔
    row.enabled = 1 ∧ ∃ r, row.load = .rule r ∧ r.appliesTo libraryId = true ∧
      evaluateRule r.toExpertRule item = true := by
  by_cases henabled : row.enabled = 1
  · have hrows : getExpertRules true [row] = loadRules [row] := by
      rw [getExpertRules, List.filter_cons_of_pos (by simpa using henabled), List.filter_nil,
        List.mergeSort_singleton]
    rw [RuleRow.fires, hrows, loadRules]
    cases hload : row.load with
    | raised => simp
    | absent => simp [loadRules, evaluateExpertRules]
    | rule r =>
        have hdecides : (evaluateExpertRules [r.toExpertRule] item libraryId).1.isSome =
            (r.appliesTo libraryId && evaluateRule r.toExpertRule item) := by
          rw [evaluateExpertRules, List.find?_singleton]
          cases r.appliesTo libraryId && evaluateRule r.toExpertRule item <;> rfl
        simp only [loadRules, Option.map_some, List.map_cons, List.map_nil, hdecides,
          Bool.and_eq_true, henabled, true_and, Loaded.rule.injEq, exists_eq_left']
  · have hrows : getExpertRules true [row] = some [] := by
      rw [getExpertRules, List.filter_cons_of_neg (by simpa using henabled), List.filter_nil,
        List.mergeSort_nil]
      rfl
    rw [RuleRow.fires, hrows]
    simp [henabled, evaluateExpertRules]

/-- A rule without a selection goes by its legacy library. -/
theorem appliesTo_of_legacy {r : LoadedRule} (hids : r.libraryIds = none)
    (hid : r.libraryId = row.libraryId.map LibraryRef.text) :
    r.appliesTo libraryId = row.legacyScope libraryId := by
  unfold ExpertRule.appliesTo RuleRow.legacyScope
  rw [hids, hid]
  cases row.libraryId with
  | none => rfl
  | some ref => cases libraryId <;> rfl

/-- The libraries of the rule that is loaded. -/
theorem appliesTo_of_load {r : LoadedRule} (h : row.load = .rule r) :
    r.appliesTo libraryId = true ↔
      row.targets libraryId = true ∨ row.ScopeLost ∧ row.legacyScope libraryId = true := by
  obtain ⟨libraryIds, operator, action, hids, -, -, -, -, hr⟩ := load_eq_rule.1 h
  have hselection : r.libraryIds = libraryIds := congrArg (·.libraryIds) hr
  have hid : r.libraryId = row.libraryId.map LibraryRef.text := congrArg (·.libraryId) hr
  rw [RuleRow.loadLibraryIds] at hids
  rw [RuleRow.targets, RuleRow.ScopeLost]
  match hlids : row.libraryIds with
  | none | some .empty | some (.json .null) =>
      rw [hlids] at hids
      cases hids
      rw [appliesTo_of_legacy hselection hid]
      simp
  | some .damaged =>
      rw [hlids] at hids
      cases hids
      rw [appliesTo_of_legacy hselection hid]
      simp
  | some (.json (.arr ids)) =>
      rw [hlids] at hids
      obtain ⟨texts, htexts, rfl⟩ := Option.map_eq_some_iff.1 hids
      unfold ExpertRule.appliesTo
      rw [hselection]
      simp only [htexts]
      cases libraryId <;> simp
  | some (.json (.bool _)) | some (.json (.num _)) | some (.json (.str _))
  | some (.json (.obj _)) =>
      rw [hlids] at hids
      cases hids

theorem evaluateRule_of_load {r : LoadedRule} (h : row.load = .rule r)
    (henabled : row.enabled = 1) :
    evaluateRule r.toExpertRule item = true ↔
      r.operator.combines row.readable fun group => evaluateGroup group item = true := by
  obtain ⟨libraryIds, operator, action, -, -, -, hne, hgroups, hr⟩ := load_eq_rule.1 h
  have hreadable : r.conditionGroups = row.readable := parseConditionGroups_eq hgroups
  have hon : r.enabled = true := by
    rw [hr, henabled]
    rfl
  have hconditions : row.readable.filter (fun g => !g.conditions.isEmpty) = row.readable := by
    refine List.filter_eq_self.2 fun group hgroup => ?_
    rw [RuleRow.readable, List.reduceOption_mem_iff] at hgroup
    simpa using conditions_ne_nil hgroup
  rw [evaluateRule, if_neg (by simp [hon, hne])]
  simp only [hreadable, hconditions, List.all_map, List.any_map]
  cases r.operator with
  | and => exact List.all_eq_true
  | or => exact List.any_eq_true

/-- A selection that has the library, or is lost, is loaded. -/
theorem loadLibraryIds_isSome (h : row.targets libraryId = true ∨ row.ScopeLost) :
    row.loadLibraryIds.isSome = true := by
  rw [RuleRow.loadLibraryIds]
  rw [RuleRow.targets, RuleRow.ScopeLost] at h
  match hlids : row.libraryIds with
  | none | some .empty | some (.json .null) | some .damaged => rfl
  | some (.json (.arr ids)) =>
      rw [hlids] at h
      cases htexts : ids.mapM Json.asStr with
      | some texts => simp only [htexts, Option.map_some, Option.isSome_some]
      | none => simp [htexts] at h
  | some (.json (.bool _)) | some (.json (.num _)) | some (.json (.str _))
  | some (.json (.obj _)) =>
      rw [hlids] at h
      simp at h

/-! ### What fires -/

/-- **A rule fires just when what can be read of it matches.** -/
theorem fires_iff : row.fires libraryId item = true ↔ row.RestMatches libraryId item := by
  rw [fires_eq]
  constructor
  · rintro ⟨henabled, r, hload, happlies, hmatches⟩
    obtain ⟨libraryIds, operator, action, -, hoperator, haction, hne, hgroups, hr⟩ :=
      load_eq_rule.1 hload
    refine ⟨henabled, by rw [haction]; rfl, (appliesTo_of_load hload).1 happlies, ?_, operator,
      hoperator, ?_⟩
    · have hreadable : r.conditionGroups = row.readable := parseConditionGroups_eq hgroups
      exact hreadable ▸ hne
    · have hcombines := (evaluateRule_of_load hload henabled).1 hmatches
      have hsame : r.operator = operator := congrArg (·.operator) hr
      simpa only [hsame, evaluateGroup_combines] using hcombines
  · rintro ⟨henabled, haction, hscope, hne, operator, hoperator, hcombines⟩
    obtain ⟨action, haction⟩ := Option.isSome_iff_exists.1 haction
    have hreadings : groupReadings row.operator row.conditions ≠ [] := by
      intro hnil
      rw [RuleRow.readable, RuleRow.readings, hnil] at hne
      exact hne rfl
    obtain ⟨libraryIds, hids⟩ := Option.isSome_iff_exists.1
      (loadLibraryIds_isSome (hscope.imp_right And.left))
    have hload : row.load = .rule
        { id := row.id, name := row.name
          libraryId := row.libraryId.map LibraryRef.text, libraryIds := libraryIds
          conditionGroups := row.readable, operator := operator, action := action
          graceDays := row.graceDays, enabled := decide (row.enabled ≠ 0)
          priority := row.priority, createdAt := row.createdAt } :=
      load_eq_rule.2 ⟨libraryIds, operator, action, hids, hoperator, haction, hne,
        parseConditionGroups_of_ne_nil hreadings, rfl⟩
    refine ⟨henabled, _, hload, (appliesTo_of_load hload).2 hscope,
      (evaluateRule_of_load hload henabled).2 ?_⟩
    simpa only [evaluateGroup_combines] using hcombines

/-- The groups that can be read, in the conservative reading. -/
theorem all_readingMatches : row.readings.all (readingMatches item) = true ↔
    none ∉ row.readings ∧ ∀ group ∈ row.readable, evaluateGroup group item = true := by
  rw [List.all_eq_true, RuleRow.readable]
  simp only [List.reduceOption_mem_iff]
  constructor
  · intro h
    exact ⟨fun hnone => Bool.false_ne_true (h none hnone), fun group hgroup => h _ hgroup⟩
  · rintro ⟨hnone, h⟩ (_ | group) hmem
    · exact absurd hmem hnone
    · exact h group hmem

theorem any_readingMatches : row.readings.any (readingMatches item) = true ↔
    ∃ group ∈ row.readable, evaluateGroup group item = true := by
  rw [List.any_eq_true, RuleRow.readable]
  simp only [List.reduceOption_mem_iff]
  constructor
  · rintro ⟨_ | group, hmem, h⟩
    · cases h
    · exact ⟨group, hmem, h⟩
  · rintro ⟨group, hmem, h⟩
    exact ⟨some group, hmem, h⟩

/-- What is left of a row matches conservatively just when it lost no group. -/
theorem matchesConservatively_of_restMatches (h : row.RestMatches libraryId item) :
    row.matchesConservatively item = true ↔ ¬ row.GroupLost := by
  obtain ⟨-, -, -, hne, operator, hoperator, hcombines⟩ := h
  simp only [← evaluateGroup_combines] at hcombines
  rw [RuleRow.matchesConservatively, RuleRow.GroupLost, hoperator]
  cases operator with
  | and =>
      have hreadings : row.readings ≠ [] := by
        intro hnil
        rw [RuleRow.readable, hnil] at hne
        exact hne rfl
      simp only [Bool.and_eq_true, all_readingMatches]
      simp only [true_and, List.isEmpty_eq_false_iff.2 hreadings, Bool.not_false]
      exact ⟨fun h => h.1, fun h => ⟨h, hcombines⟩⟩
  | or =>
      exact iff_of_true (any_readingMatches.2 hcombines) (by simp)

/-- **The two readings of a row**: where its rule fires, the row fires conservatively just when it
is intact, or what can be read of it does not match. -/
theorem firesConservatively_of_fires_iff (row : RuleRow) (libraryId : Option String)
    (item : ItemData) :
    (row.fires libraryId item = true → row.firesConservatively libraryId item = true) ↔
      row.Intact ∨ ¬ row.RestMatches libraryId item := by
  rw [fires_iff]
  by_cases hrest : row.RestMatches libraryId item
  · have hscope : row.targets libraryId = true ↔ ¬ row.ScopeLost := by
      constructor
      · intro htargets hlost
        rw [RuleRow.targets, hlost] at htargets
        cases htargets
      · intro hlost
        exact hrest.scope.resolve_right fun h => hlost h.1
    rw [RuleRow.firesConservatively, Bool.and_eq_true, Bool.and_eq_true, decide_eq_true_iff,
      hscope, matchesConservatively_of_restMatches hrest, RuleRow.Intact]
    simp only [hrest, hrest.enabled, true_and, forall_const, not_true, or_false]
  · exact iff_of_true (fun h => absurd h hrest) (.inr hrest)

/-- Films below a rating of 5, under an operator that does not exist, and not watched for a month.
-/
def damagedRow : RuleRow :=
  { id := 1, name := "Old and bad"
    conditions := .json (.arr
      [.obj [("operator", .str "BOGUS"), ("conditions", .arr
          [.obj [("field", .str "rating"), ("op", .str "lt"), ("value", .num 5)]])],
        .obj [("operator", .str "AND"), ("conditions", .arr
          [.obj [("field", .str "days_not_watched"), ("op", .str "gt"), ("value", .num 30)]])]]) }

/-- A good film that nobody watched for 40 days. -/
def goodFilm : ItemData :=
  buildItemData (40 * 86400000000) { rating := 9 } 1 (some 0) none none

/-- The rule that is loaded from the row fires on the good film. -/
theorem not_firesConservatively_damaged :
    ¬ ∀ (row : RuleRow) (libraryId : Option String) (item : ItemData),
      row.fires libraryId item = true → row.firesConservatively libraryId item = true := by
  intro h
  have hfires : damagedRow.fires (some "films") goodFilm = true := by decide +kernel
  have hconservative : damagedRow.firesConservatively (some "films") goodFilm = false := by
    decide +kernel
  exact Bool.false_ne_true (hconservative ▸ h damagedRow (some "films") goodFilm hfires)

/-! ### Among other rules -/

/-- A rule that decides among those of a table fires by itself. -/
theorem exists_fires_of_decides {rows : List RuleRow} {rules : List LoadedRule}
    (hrules : getExpertRules true rows = some rules) {action : RuleAction} {graceDays : ℤ}
    (hdecides : evaluateExpertRules (rules.map (·.toExpertRule)) item libraryId =
      (some action, graceDays)) :
    ∃ row ∈ rows, row.fires libraryId item = true ∧
      ∃ r, row.load = .rule r ∧ r.action = action ∧ r.graceDays = graceDays := by
  rw [evaluateExpertRules] at hdecides
  split at hdecides
  · next rule hfind =>
      obtain ⟨rfl, rfl⟩ := Prod.mk.inj hdecides |>.imp_left Option.some.inj
      obtain ⟨r, hr, rfl⟩ := List.mem_map.1 (List.mem_of_find?_eq_some hfind)
      obtain ⟨row, hrow, henabled, hload⟩ := (mem_getExpertRules hrules).1 hr
      have hboth := List.find?_some hfind
      rw [Bool.and_eq_true] at hboth
      exact ⟨row, hrow, fires_eq.2 ⟨henabled rfl, r, hload, hboth⟩, r, hload, rfl, rfl⟩
  · cases hdecides

end Hygie
