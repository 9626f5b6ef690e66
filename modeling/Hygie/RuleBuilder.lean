/-
**Editing a rule keeps its libraries, or gives it all of them.**

The rule builder of the web client reads the selection of libraries of a stored rule through the
stores of the client: a library that the store does not know, or whose server is disabled, is left
out.  A selection that comes out empty is `null`, which means every library.  The form has no field
for the legacy `library_id`, so that a saved rule never has one.

Main definitions:

* `Stores`, `filterEnabledLibraryIds` — the stores of the client, and the filter;
* `RuleEdit`, `saveEdited` — an edit of the other fields, and the rule that is stored;
* `neverWidens` — the stored rule applies to no other library than the rule that was opened.

Main results:

* `neverWidens_iff` — **exactly when an edit does not widen a rule**.
-/

import Hygie.ExpertRules

set_option relaxedAutoImplicit false
set_option autoImplicit false

namespace Hygie

/-- A server in the store of the client. -/
structure StoreServer where
  id : String
  enabled : Bool := true
  deriving DecidableEq, Repr

/-- A library in the store of the client. -/
structure StoreLibrary where
  id : String
  serverId : Option String
  deriving DecidableEq, Repr

/-- The stores, empty before they are loaded. -/
structure Stores where
  servers : List StoreServer
  libraries : List StoreLibrary
  deriving DecidableEq, Repr

/-- Whether the store knows the library and its server is enabled. -/
def Stores.offers (stores : Stores) (libId : String) : Bool :=
  match stores.libraries.find? fun l => l.id = libId with
  | some lib => lib.serverId.getD "0" ∈ (stores.servers.filter (·.enabled)).map (·.id)
  | none => false

/-- `filterEnabledLibraryIds`. -/
def filterEnabledLibraryIds (stores : Stores) : Option (List String) → Option (List String)
  | none => none
  | some ids =>
      let filtered := ids.filter stores.offers
      if filtered.isEmpty then none else some filtered

/-- The fields of the form besides the selection of libraries. -/
structure RuleEdit where
  name : String
  conditionGroups : List ConditionGroup
  operator : RuleOperator
  action : RuleAction
  graceDays : ℤ
  enabled : Bool
  priority : ℤ

/-- The rule that is stored when `rule` is opened, other fields than the libraries are edited and
the form is saved. -/
def saveEdited (stores : Stores) (rule : ExpertRule) (edit : RuleEdit) : ExpertRule where
  name := edit.name
  libraryId := none
  libraryIds := filterEnabledLibraryIds stores rule.libraryIds
  conditionGroups := edit.conditionGroups
  operator := edit.operator
  action := edit.action
  graceDays := edit.graceDays
  enabled := edit.enabled
  priority := edit.priority

/-- The stored rule applies to no library to which the opened rule did not apply. -/
def neverWidens (rule saved : ExpertRule) : Prop :=
  ∀ libraryId, saved.appliesTo (some libraryId) = true → rule.appliesTo (some libraryId) = true

section Scope

variable {stores : Stores} {rule : ExpertRule} {edit : RuleEdit} {ids : List String}

theorem appliesTo_ids {libraryId : String} (h : rule.libraryIds = some ids) :
    rule.appliesTo (some libraryId) = true ↔ libraryId ∈ ids := by
  simp [ExpertRule.appliesTo, h]

/-- A rule without a selection and without a legacy library applies to every library. -/
theorem appliesTo_all {libraryId : Option String} (hids : rule.libraryIds = none)
    (hid : rule.libraryId = none) : rule.appliesTo libraryId = true := by
  simp [ExpertRule.appliesTo, hids, hid]

/-- There is a text that is none of the given ones. -/
theorem exists_other_text (texts : List String) : ∃ s : String, s ∉ texts := by
  obtain ⟨s, hs⟩ := Infinite.exists_notMem_finset texts.toFinset
  exact ⟨s, by simpa using hs⟩

/-- A selection stays the same up to the libraries that the stores do not offer, unless none is
left. -/
theorem filterEnabledLibraryIds_some :
    filterEnabledLibraryIds stores (some ids) =
      if ∃ id ∈ ids, stores.offers id = true then some (ids.filter stores.offers) else none := by
  simp only [filterEnabledLibraryIds, List.isEmpty_iff, List.filter_eq_nil_iff]
  split_ifs with hnone hsome hsome
  · obtain ⟨id, hid, hoffers⟩ := hsome
    exact absurd hoffers (hnone id hid)
  · rfl
  · rfl
  · exact absurd (fun id hid hoffers => hsome ⟨id, hid, hoffers⟩) hnone

/-- **An edit does not widen a rule** if and only if the rule is for all libraries, or the stores
offer one of the libraries it selects. -/
theorem neverWidens_iff :
    neverWidens rule (saveEdited stores rule edit) ↔
      (rule.libraryIds = none ∧ rule.libraryId = none) ∨
        ∃ ids, rule.libraryIds = some ids ∧ ∃ id ∈ ids, stores.offers id = true := by
  rcases hids : rule.libraryIds with _ | ids
  · -- without a selection the stored rule is for all libraries
    have hall : ∀ libraryId, (saveEdited stores rule edit).appliesTo (some libraryId) = true :=
      fun _ => appliesTo_all (by simp [saveEdited, hids, filterEnabledLibraryIds]) rfl
    rcases hid : rule.libraryId with _ | ref
    · exact iff_of_true (fun _ _ => appliesTo_all hids hid) (.inl ⟨rfl, rfl⟩)
    · refine iff_of_false (fun h => ?_) (by simp)
      obtain ⟨other, hother⟩ := exists_other_text [ref.toString]
      have happlies := h other (hall other)
      simp only [ExpertRule.appliesTo, hids, hid, decide_eq_true_eq] at happlies
      exact hother (by simp [happlies])
  · by_cases hsome : ∃ id ∈ ids, stores.offers id = true
    · refine iff_of_true (fun libraryId happlies => ?_) (.inr ⟨ids, rfl, hsome⟩)
      have hsaved : (saveEdited stores rule edit).libraryIds = some (ids.filter stores.offers) := by
        simp only [saveEdited, hids, filterEnabledLibraryIds_some, if_pos hsome]
      rw [appliesTo_ids hsaved] at happlies
      exact (appliesTo_ids hids).2 (List.mem_of_mem_filter happlies)
    · refine iff_of_false (fun h => ?_) (by simpa using hsome)
      obtain ⟨other, hother⟩ := exists_other_text ids
      have hsaved : (saveEdited stores rule edit).libraryIds = none := by
        simp only [saveEdited, hids, filterEnabledLibraryIds_some, if_neg hsome]
      exact hother ((appliesTo_ids hids).1 (h other (appliesTo_all hsaved rfl)))

end Scope

/-- Not watched for a month. -/
def sampleGroups : List ConditionGroup :=
  [{ conditions := [{ field := .daysNotWatched, test := .compare .gt (.num 30) }] }]

/-- A rule for one library by the legacy field, renamed. -/
theorem not_neverWidens_legacy :
    ¬ ∀ (stores : Stores) (rule : ExpertRule) (edit : RuleEdit),
      neverWidens rule (saveEdited stores rule edit) := by
  intro hclaim
  have happlies := hclaim
    { servers := [{ id := "0" }], libraries := [{ id := "movies", serverId := some "0" }] }
    { name := "Old films", libraryId := some (.text "movies")
      conditionGroups := sampleGroups }
    { name := "Old and long films", conditionGroups := sampleGroups, operator := .and
      action := .queue, graceDays := 7, enabled := true, priority := 0 } "series" (by decide)
  exact absurd happlies (by decide)

end Hygie
