/-
**The purge of rows without a requester.**

After a scan, the pending rows without a requester are removed from the libraries all of whose rules
ask for a requester.  A rule asks for one, for the purge, if some group of it has an `in` condition
on the requester.  That says less than that it cannot match without one, since groups and conditions
may be combined by `OR`; the purge reads the scope of a rule in its own way; and it does not look at
the conditions of the library itself.

What a rule can match without a requester is decided by its alternatives: one that tests the
requester is out, whatever else it says.

Main definitions:

* `hasSeerrFilter`, `purgeScope`, `requiresSeerr`, `purgeStaleSeerrItems` — the purge;
* `MatchesWithoutRequester`, `SelectsWithoutRequester` — what a rule and a library can queue without
  a requester;
* `Justified` — nothing could have queued the row.

Main results:

* `matchesWithoutRequester_iff`, `selectsWithoutRequester_iff` — the two, alternative by
  alternative;
* `purge_justified_iff` — **exactly when the purge is justified**.
-/

import Hygie.RuleMigration

set_option relaxedAutoImplicit false
set_option autoImplicit false

namespace Hygie

/-! ### The purge -/

/-- `_has_seerr_filter`. -/
def hasSeerrFilter (rule : ExpertRule) : Bool :=
  rule.conditionGroups.any fun group => group.conditions.any fun c =>
    c.field = .seerrUserId &&
      match c.test with
      | .isIn _ => true
      | _ => false

/-- The libraries a rule is grouped under; nothing for a rule that is taken as global. -/
def purgeScope (rule : ExpertRule) : Option (List String) :=
  match rule.libraryIds with
  | some (id :: ids) => some (id :: ids)
  | _ =>
      match rule.libraryId with
      | some ref => if ref.truthy then some [ref.toString] else none
      | none => none

/-- `library_to_rules[lid]`. -/
def libraryToRules (rules : List ExpertRule) (lid : String) : List ExpertRule :=
  rules.filter fun rule => (purgeScope rule).any (lid ∈ ·)

/-- `global_rules`. -/
def globalRules (rules : List ExpertRule) : List ExpertRule :=
  rules.filter fun rule => (purgeScope rule).isNone

/-- `lid in libraries_requiring_seerr`. -/
def requiresSeerr (rules : List ExpertRule) (lid : String) : Bool :=
  !(libraryToRules rules lid).isEmpty &&
    (libraryToRules rules lid ++ globalRules rules).all hasSeerrFilter

/-- The rows that `delete_stale_pending_no_seerr` removes. -/
def isStale (rules : List ExpertRule) (row : QueueRow) : Bool :=
  row.status = .pending && (truthyId row.seerrUserId).isNone && requiresSeerr rules row.libraryId

/-- `_purge_stale_seerr_items`: the rows that stay; only enabled rules are read. -/
def purgeStaleSeerrItems (rules : List ExpertRule) (rows : List QueueRow) : List QueueRow :=
  rows.filter fun row => !isStale (rules.filter (·.enabled)) row

/-! ### What can be queued without a requester -/

/-- The rule matches some item without a requester. -/
def MatchesWithoutRequester (rule : ExpertRule) : Prop :=
  ∃ now item playCount lastPlayed addedDate,
    evaluateRule rule (buildItemData now item playCount lastPlayed addedDate none) = true

/-- The conditions and the filter of the library select some item without a requester. -/
def SelectsWithoutRequester (lib : LibraryRules) : Prop :=
  ∃ now addedDate logged users,
    let st := aggregateUserData logged users
    evaluateConditions now lib.conditions lib.logic (some addedDate) st.lastPlayed st.playCount
        st.neverWatched = true ∧
      seerrFilterRejects none lib.seerrConditions = false

/-- Nothing could have queued a row without a requester: no enabled rule that applies to its
library, and not the library itself. -/
def Justified (rules : List ExpertRule) (libraries : List LibraryRules) (row : QueueRow) : Prop :=
  (∀ rule ∈ rules, rule.enabled = true → rule.appliesTo (some row.libraryId) = true →
    ¬ MatchesWithoutRequester rule) ∧
  ∀ lib ∈ libraries, lib.id = row.libraryId → ¬ SelectsWithoutRequester lib

/-- An alternative that tests the requester. -/
def TestsRequester (alternative : List Condition) : Prop :=
  ∃ c ∈ alternative, c.field = .seerrUserId

/-- An alternative that some item without a requester meets. -/
def Consistent (alternative : List Condition) : Prop :=
  ∃ now item playCount lastPlayed addedDate, ∀ c ∈ alternative,
    evaluateCondition c (buildItemData now item playCount lastPlayed addedDate none) = true

/-- **What a rule can match without a requester**: an alternative that does not test it. -/
theorem matchesWithoutRequester_iff {rule : ExpertRule} :
    MatchesWithoutRequester rule ↔
      ∃ alternative ∈ rule.alternatives, ¬ TestsRequester alternative ∧ Consistent alternative := by
  constructor
  · intro hmatches
    obtain ⟨now, item, playCount, lastPlayed, addedDate, h⟩ := hmatches
    obtain ⟨alternative, halternative, hholds⟩ := evaluateRule_iff.1 h
    refine ⟨alternative, halternative, ?_, now, item, playCount, lastPlayed, addedDate, hholds⟩
    -- a condition on the requester fails without one
    intro htests
    obtain ⟨c, hc, hfield⟩ := htests
    have hfails : evaluateCondition c
        (buildItemData now item playCount lastPlayed addedDate none) = false :=
      evaluateCondition_none (by simp [hfield, buildItemData])
    exact absurd (hholds c hc) (by simp [hfails])
  · intro hexists
    obtain ⟨alternative, halternative, _, hconsistent⟩ := hexists
    obtain ⟨now, item, playCount, lastPlayed, addedDate, hholds⟩ := hconsistent
    exact ⟨now, item, playCount, lastPlayed, addedDate,
      evaluateRule_iff.2 ⟨alternative, halternative, hholds⟩⟩

/-- The filter rejects an item without a requester if and only if there is an include list. -/
theorem seerrFilterRejects_none {lib : LibraryRules} :
    seerrFilterRejects none lib.seerrConditions = true ↔ HasList lib .userInclude := by
  have hlist : lib.seerrConditions.any (·.type = .userInclude) = true ↔
      HasList lib .userInclude := by
    simp [HasList, filteredUsers]
  have hpasses : seerrFilterPasses none lib.seerrConditions = true ↔
      ¬ HasList lib .userInclude := by
    simp [seerrFilterPasses_iff, Passes, Included, Excluded, inUsers]
  simp only [seerrFilterRejects]
  split_ifs with hnone hinclude
  · simp [HasList, filteredUsers, List.isEmpty_iff.1 hnone]
  · exact iff_of_true rfl (hlist.1 (by simpa using hinclude))
  · rw [Bool.not_eq_true', ← Bool.not_eq_true, hpasses, not_not]

/-- **What a library can select without a requester**: what meets its conditions, if it has no
include list. -/
theorem selectsWithoutRequester_iff {lib : LibraryRules} :
    SelectsWithoutRequester lib ↔
      ¬ HasList lib .userInclude ∧ lib.conditions ≠ [] ∧ ∃ now addedDate logged users,
        lib.logic.combines lib.conditions
          (·.holds now (some addedDate) (aggregateUserData logged users)) := by
  simp only [SelectsWithoutRequester, evaluateConditions_iff, ← Bool.not_eq_true,
    seerrFilterRejects_none]
  constructor
  · intro ⟨now, addedDate, logged, users, ⟨hconditions, hholds⟩, hlist⟩
    exact ⟨hlist, hconditions, now, addedDate, logged, users, hholds⟩
  · intro ⟨hlist, hconditions, now, addedDate, logged, users, hholds⟩
    exact ⟨now, addedDate, logged, users, ⟨hconditions, hholds⟩, hlist⟩

/-! ### When the purge is justified -/

section Purge

variable {rules : List ExpertRule} {libraries : List LibraryRules} {rows : List QueueRow}

theorem mem_purgeStaleSeerrItems {row : QueueRow} :
    row ∈ purgeStaleSeerrItems rules rows ↔
      row ∈ rows ∧ isStale (rules.filter (·.enabled)) row = false := by
  simp [purgeStaleSeerrItems]

/-- Every way to queue something without a requester is barred in a library: each alternative of
each enabled rule that applies to it tests the requester or contradicts itself, and the library has
an include list, no conditions, or conditions that nothing meets. -/
def BarsWithoutRequester (rules : List ExpertRule) (libraries : List LibraryRules) (lid : String) :
    Prop :=
  (∀ rule ∈ rules, rule.enabled = true → rule.appliesTo (some lid) = true →
    ∀ alternative ∈ rule.alternatives, TestsRequester alternative ∨ ¬ Consistent alternative) ∧
  ∀ lib ∈ libraries, lib.id = lid → HasList lib .userInclude ∨ lib.conditions = [] ∨
    ∀ now addedDate logged users, ¬ lib.logic.combines lib.conditions
      (·.holds now (some addedDate) (aggregateUserData logged users))

theorem justified_iff {row : QueueRow} :
    Justified rules libraries row ↔ BarsWithoutRequester rules libraries row.libraryId := by
  simp only [Justified, BarsWithoutRequester, matchesWithoutRequester_iff,
    selectsWithoutRequester_iff]
  grind

/-- **Exactly when the purge is justified**: in every library that it empties of pending rows
without a requester, each way to queue one is barred. -/
theorem purge_justified_iff :
    (∀ row ∈ rows, row ∉ purgeStaleSeerrItems rules rows → Justified rules libraries row) ↔
      ∀ row ∈ rows, row.status = .pending → truthyId row.seerrUserId = none →
        requiresSeerr (rules.filter (·.enabled)) row.libraryId = true →
        BarsWithoutRequester rules libraries row.libraryId := by
  simp only [mem_purgeStaleSeerrItems, justified_iff]
  constructor
  · intro h row hrow hpending hseerr hrequires
    exact h row hrow fun hstays => by simp [isStale, hpending, hseerr, hrequires] at hstays
  · intro h row hrow hremoved
    have hstale : isStale (rules.filter (·.enabled)) row = true := by
      simpa [hrow] using hremoved
    simp only [isStale, Bool.and_eq_true, decide_eq_true_eq, Option.isNone_iff_eq_none] at hstale
    exact h row hrow hstale.1.1 hstale.1.2 hstale.2

end Purge

/-- A rule for what a user requested, or for what has not been watched for a year: the row of an
item that nobody requested is purged, although the rule matches it. -/
theorem not_purge_justified_or :
    ¬ ∀ (rules : List ExpertRule) (libraries : List LibraryRules) (rows : List QueueRow),
      ∀ row ∈ rows, row ∉ purgeStaleSeerrItems rules rows → Justified rules libraries row := by
  intro hclaim
  have hjustified := hclaim
    [{ name := "Requested or old", libraryIds := some ["movies"], operator := .or
       conditionGroups :=
        [{ conditions := [{ field := .seerrUserId, test := .isIn [.num 5] }] },
          { conditions := [{ field := .daysNotWatched, test := .compare .gt (.num 365) }] }] }] []
    [{ id := 7, embyId := "42", title := "Alien", mediaType := "Movie", libraryId := "movies"
       libraryName := "Movies", filePath := "/movies/Alien/Alien.mkv"
       detectedAt := "2025-01-01T00:00:00", deleteAt := "2025-02-01T00:00:00" }]
    _ (List.mem_singleton_self _) (by decide)
  exact hjustified.1 _ (List.mem_singleton_self _) rfl (by decide)
    ⟨40000000000000, {}, 0, none, some 0, by decide⟩

end Hygie
