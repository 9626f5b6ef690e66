/-
**The re-evaluation of a library.**

When the conditions of a library change, its pending rows are checked again, and those that no
longer match are removed.  The check reads the conditions of the library only, of the added date and
the last play that the row stores and of the data that the users have under the row's identifier.
So a row that an expert rule has queued goes unless the conditions happen to match as well, and of a
consolidated row no user knows the identifier: it is checked as an item that nobody has played.

Whatever the conditions are changed to, no row goes that a scan would queue again, if and only if
the check sees of every row what the scan sees of an item that the row stands for, and that no rule
queues.  Conditions tell any difference between the two, and several items need several conditions.

Main definitions:

* `Reevaluation`, `reevaluateLibraryQueue` — what is read, and what remains of the queue;
* `Reevaluation.Justified` — a scan would queue the items that a row stands for;
* `Reevaluation.RemovesOnlyUnjustified` — the law;
* `Reevaluation.Resembles` — the check sees of a row what the scan sees of an item;
* `Reevaluation.Safe` — the condition on a row.

Main results:

* `mem_reevaluateLibraryQueue` — **the rows that remain**;
* `selects_iff` — the two ways an item is selected;
* `resembles_iff` — conditions tell any difference;
* `mem_of_agrees` — a row that agrees with its item stays while the conditions select the item;
* `removesOnlyUnjustified_iff` — **exactly when the law holds** whatever the conditions are;
* `not_resembles_of_played` — a consolidated row that was played resembles no item.
-/

import Hygie.GroupSums
import Hygie.WatchReaders

set_option relaxedAutoImplicit false
set_option autoImplicit false

namespace Hygie

/-- The conditions that count: one whose field is unknown has no group, which under `AND` fails them
all. -/
def countingConditions (logic : RuleOperator) (stored : List (Option LegacyCondition)) :
    List LegacyCondition :=
  if logic = .and ∧ none ∈ stored then [] else stored.filterMap id

/-- The re-evaluation of a library, and what a scan of it would see at the same time. -/
structure Reevaluation where
  rt : Runtime
  sc : LibraryScan
  /-- The conditions of the library as they are stored. -/
  stored : List (Option LegacyCondition)
  requests : RequestCache
  items : List ScannedItem
  /-- The data of each user, by item; nothing stands for an exception. -/
  users : Option (List UserDataMap)

namespace Reevaluation

variable (s : Reevaluation)

/-- What the users have for an identifier. -/
def data (id : String) : List UserData := (s.users.getD []).map fun m => (m id).getD {}

/-- A scan of the library with its current conditions, for which nothing is queued. -/
def scan : LibraryScan :=
  { s.sc with
    lib := { s.sc.lib with conditions := countingConditions s.sc.lib.logic s.stored }
    queuedIds := [] }

/-- An item with the data that the users have now. -/
def seen (item : ScannedItem) : ScannedItem := { item with userData := s.data item.id }

/-- The conditions of the library hold. -/
def conditionsHold (addedDate : Option Instant) (st : WatchState) : Bool :=
  evaluateConditions s.rt.now s.scan.lib.conditions s.sc.lib.logic addedDate st.lastPlayed
    st.playCount
    st.neverWatched

/-- The plays that the users know, merged with the last play that the row stores. -/
def mergedState (row : QueueRow) : WatchState :=
  let st := aggregateUserData .absent (s.data row.embyId)
  match row.lastPlayed.bind s.rt.parseIsoDt with
  | none => st
  | some t => { st with neverWatched := false, lastPlayed := laterPlay st.lastPlayed (some t) }

/-- A pending row of the library. -/
def isPending (row : QueueRow) : Bool := row.libraryId = s.sc.lib.id && row.status = .pending

/-- Whether a row passes the check. -/
def keeps (row : QueueRow) : Bool :=
  s.conditionsHold (row.addedDate.bind s.rt.parseIsoDt) (s.mergedState row)

end Reevaluation

/-- `reevaluate_library_queue`: the queue afterwards, and the number of rows removed. -/
def reevaluateLibraryQueue (s : Reevaluation) (q : QueueTable) : QueueTable × ℕ :=
  match s.users with
  | none => (q, 0)
  | some [] => (q, 0)
  | some (_ :: _) =>
      let removed := (q.rows.filter s.isPending).filter fun row => !s.keeps row
      (removed.foldl (fun q row => q.delete fun other => other.id = row.id) q, removed.length)

namespace Reevaluation

variable (s : Reevaluation)

/-- The items that a row stands for: the item of that identifier, or the episodes of the group. -/
def StandsFor (row : QueueRow) (item : ScannedItem) : Prop :=
  if isConsolidatedId row.embyId then row.embyId ∈ item.watchKeys s.sc.sonarrCache
  else item.id = row.embyId

/-- A scan would queue the item, by the conditions or by an expert rule. -/
def Selects (item : ScannedItem) : Prop :=
  (collectItem s.rt s.requests s.scan (s.seen item)).isSome = true

/-- A scan would queue the items that a row stands for. -/
def Justified (row : QueueRow) : Prop :=
  (∃ item ∈ s.items, s.StandsFor row item) ∧ ∀ item ∈ s.items, s.StandsFor row item → s.Selects item

/-- No user has data for a synthetic identifier. -/
def Genuine : Prop := ∀ m ∈ s.users.getD [], ∀ id, isConsolidatedId id = true → m id = none

variable {s : Reevaluation} {q : QueueTable} {row : QueueRow} {item : ScannedItem}
  {entry : QueueEntry}

/-! ### The rows that remain -/

/-- Deleting some rows one by one leaves the others. -/
theorem mem_foldl_delete {removed : List QueueRow} :
    row ∈ (removed.foldl (fun q row => q.delete fun other => other.id = row.id) q).rows ↔
      row ∈ q.rows ∧ ∀ old ∈ removed, row.id ≠ old.id := by
  induction removed generalizing q with
  | nil => simp
  | cons old removed ih =>
      rw [List.foldl_cons, ih, QueueTable.mem_delete, decide_eq_false_iff_not, and_assoc,
        List.forall_mem_cons]

/-- **The rows that remain**: of the pending rows of the library those that pass the check. -/
theorem mem_reevaluateLibraryQueue :
    row ∈ (reevaluateLibraryQueue s q).1.rows ↔
      row ∈ q.rows ∧ (s.users.getD [] ≠ [] → s.isPending row = true → s.keeps row = true) := by
  rw [reevaluateLibraryQueue]
  rcases husers : s.users with _ | _ | ⟨user, users⟩
  · simp
  · simp
  · simp only [mem_foldl_delete, Option.getD_some, ne_eq, reduceCtorEq, not_false_eq_true,
      true_imp_iff,
      List.mem_filter, Bool.not_eq_true']
    refine and_congr_right fun hrow => ?_
    constructor
    · intro hother hpending
      by_contra hkeeps
      exact hother row ⟨⟨hrow, hpending⟩, by simpa using hkeeps⟩ rfl
    · rintro hkeeps old ⟨⟨hold, hpending⟩, hfails⟩ hid
      obtain rfl := QueueTable.eq_of_id hrow hold hid
      rw [hkeeps hpending] at hfails
      cases hfails

/-! ### The check -/

/-- No user has played a consolidated row. -/
theorem aggregate_synthetic (hgen : s.Genuine) {id : String} (hid : isConsolidatedId id = true) :
    aggregateUserData .absent (s.data id) =
      { playCount := 0, neverWatched := true, lastPlayed := none } := by
  have hdata : ∀ ud ∈ s.data id, ud = {} := by
    intro ud hud
    obtain ⟨m, hm, rfl⟩ := List.mem_map.1 hud
    rw [hgen m hm id hid]
    rfl
  rw [aggregateUserData]
  generalize s.data id = users at hdata
  induction users with
  | nil => rfl
  | cons ud users ih =>
      obtain ⟨rfl, hrest⟩ := List.forall_mem_cons.1 hdata
      exact ih hrest

/-- The plays that a consolidated row is checked with. -/
theorem playCount_mergedState (hgen : s.Genuine) (hid : isConsolidatedId row.embyId = true) :
    (s.mergedState row).playCount = 0 := by
  rw [mergedState, aggregate_synthetic hgen hid]
  cases row.lastPlayed.bind s.rt.parseIsoDt <;> rfl

/-! ### What selects an item -/

/-- An item that may be queued at all. -/
def Queueable (s : Reevaluation) (item : ScannedItem) : Prop :=
  item.id ≠ "" ∧ item.path ≠ "" ∧ item.id ∉ s.sc.ignoredIds

/-- The requester of an item. -/
def requester (s : Reevaluation) (item : ScannedItem) : Option ℤ :=
  (lookupSeerrRequest s.requests item.tmdbId).bind (·.userId)

/-- The conditions of the library select an item: they hold of its own dates and plays, and the
filter on the requester lets it pass. -/
def ByConditions (s : Reevaluation) (item : ScannedItem) : Prop :=
  ∃ added, item.dateCreated.parse = some added ∧
    s.conditionsHold (some added) (s.seen item).state = true ∧
    seerrFilterRejects (s.requester item) s.sc.lib.seerrConditions = false

/-- The first enabled expert rule of the library that matches an item queues it. -/
def ByRules (s : Reevaluation) (item : ScannedItem) : Prop :=
  (evaluateExpertRules s.sc.rules
    (buildItemData s.rt.now item.facts (s.seen item).state.playCount (s.seen item).state.lastPlayed
      item.dateCreated.parse (s.requester item)) (some s.sc.lib.id)).1 = some .queue

/-- The item in the terms of the scan. -/
theorem evaluateItem_seen {added : Instant} (hadded : item.dateCreated.parse = some added) :
    (evaluateItem s.rt s.requests s.scan (s.seen item)).isSome = true ↔
      ¬ (item.id = "" ∨ item.path = "") ∧ s.conditionsHold (some added) (s.seen item).state = true ∧
        ¬ (item.id ∈ s.scan.queuedIds ∨ item.id ∈ s.sc.ignoredIds) ∧
        seerrFilterRejects (s.requester item) s.sc.lib.seerrConditions = false := by
  have hseen : (s.seen item).dateCreated.parse = some added := hadded
  simp only [evaluateItem, hseen]
  split_ifs with hnamed hfails hqueued hrejects
  · exact iff_of_false Bool.false_ne_true fun h => h.1 hnamed
  · refine iff_of_false Bool.false_ne_true fun h => ?_
    rw [Bool.not_eq_true'] at hfails
    exact Bool.false_ne_true (hfails.symm.trans h.2.1)
  · exact iff_of_false Bool.false_ne_true fun h => h.2.2.1 hqueued
  · exact iff_of_false Bool.false_ne_true fun h =>
      Bool.false_ne_true (h.2.2.2.symm.trans hrejects)
  · rw [Bool.not_eq_true', Bool.not_eq_false] at hfails
    exact iff_of_true rfl ⟨hnamed, hfails, hqueued, Bool.not_eq_true _ ▸ hrejects⟩

theorem evaluateItem_isSome_iff :
    (evaluateItem s.rt s.requests s.scan (s.seen item)).isSome = true ↔
      s.Queueable item ∧ s.ByConditions item := by
  cases hadded : item.dateCreated.parse with
  | none =>
      have hseen : (s.seen item).dateCreated.parse = none := hadded
      simp [evaluateItem, hseen, ByConditions, hadded]
  | some added =>
      have hqueued : item.id ∉ s.scan.queuedIds := List.not_mem_nil
      rw [evaluateItem_seen hadded]
      simp only [Queueable, ByConditions, hadded, Option.some.injEq, exists_eq_left', hqueued,
        false_or,
        not_or]
      tauto

/-- **The two ways an item is selected.** -/
theorem selects_iff :
    s.Selects item ↔ s.Queueable item ∧ (s.ByConditions item ∨ s.ByRules item) := by
  have hqueued : item.id ∉ s.scan.queuedIds := List.not_mem_nil
  have hconditions : (evaluateItem s.rt s.requests s.scan (s.seen item)).isSome = true ↔ _ :=
    evaluateItem_isSome_iff
  rw [Selects, collectItem]
  cases hlegacy : evaluateItem s.rt s.requests s.scan (s.seen item) with
  | some entry =>
      rw [hlegacy] at hconditions
      obtain ⟨hqueueable, hby⟩ := hconditions.1 rfl
      exact iff_of_true rfl ⟨hqueueable, .inl hby⟩
  | none =>
      have hnot : ¬ (s.Queueable item ∧ s.ByConditions item) := by
        rw [← hconditions, hlegacy]
        exact Bool.false_ne_true
      have hrules : (evaluateExpertRulesFallback s.rt s.requests s.scan (s.seen item)).isSome =
          true ↔ s.ByRules item := by
        simp only [evaluateExpertRulesFallback]
        split
        · next hqueue => exact iff_of_true rfl hqueue
        · next hqueue => exact iff_of_false Bool.false_ne_true hqueue
      simp only
      split_ifs with hskipped
      · refine iff_of_false Bool.false_ne_true fun h => ?_
        rcases hskipped with hid | hpath | hold | hignored
        · exact h.1.1 hid
        · exact h.1.2.1 hpath
        · exact hqueued hold
        · exact h.1.2.2 hignored
      · rw [hrules]
        simp only [not_or] at hskipped
        have hqueueable : s.Queueable item := ⟨hskipped.1, hskipped.2.1, hskipped.2.2.2⟩
        constructor
        · exact fun h => ⟨hqueueable, .inr h⟩
        · exact fun h => h.2.resolve_left fun hby => hnot ⟨hqueueable, hby⟩

/-! ### What the conditions tell -/

/-- **The check sees of a row what the scan sees of an item**: as many days since the addition, as
many plays, whether it was played, and as many days since the last play, if the scan knows that. -/
structure Resembles (s : Reevaluation) (row : QueueRow) (item : ScannedItem) : Prop where
  added : (row.addedDate.bind s.rt.parseIsoDt).map (daysBetween s.rt.now) =
    item.dateCreated.parse.map (daysBetween s.rt.now)
  playCount : (s.mergedState row).playCount = (s.seen item).state.playCount
  neverWatched : (s.mergedState row).neverWatched = (s.seen item).state.neverWatched
  lastPlayed : ∀ t, (s.seen item).state.lastPlayed = some t →
    (s.mergedState row).lastPlayed.map (daysBetween s.rt.now) = some (daysBetween s.rt.now t)

/-- The row stands for no item, or for one that may not be queued, or for one that no rule queues
and that has no date, or a requester whom the filter keeps back, or that the row resembles. -/
def Safe (s : Reevaluation) (row : QueueRow) : Prop :=
  (∀ item ∈ s.items, ¬ s.StandsFor row item) ∨
    ∃ item ∈ s.items, s.StandsFor row item ∧ (¬ s.Queueable item ∨ ¬ s.ByRules item ∧
      (item.dateCreated.parse = none ∨
        seerrFilterRejects (s.requester item) s.sc.lib.seerrConditions = true ∨
          s.Resembles row item))

/-- The library after its conditions have been changed. -/
def withConditions (s : Reevaluation) (stored : List (Option LegacyCondition))
    (logic : RuleOperator) : Reevaluation :=
  { s with stored := stored, sc := { s.sc with lib := { s.sc.lib with logic := logic } } }

theorem num_eq_iff {a b : ℤ} : NumericOp.eq.holds (.num a) (.num b) = true ↔ a = b := by
  simp [NumericOp.holds_eq]

/-- **Conditions tell any difference.** -/
theorem resembles_iff {added : Instant} (hadded : item.dateCreated.parse = some added) :
    s.Resembles row item ↔ ∀ c : LegacyCondition,
      c.holds s.rt.now (some added) (s.seen item).state →
        c.holds s.rt.now (row.addedDate.bind s.rt.parseIsoDt) (s.mergedState row) := by
  have hwell : (s.seen item).state.WellFormed := aggregateUserData_wellFormed _ _
  constructor
  · rintro ⟨hdays, hcount, hnever, hlast⟩ ⟨_ | _ | _ | _, op, value⟩ hholds
    · obtain ⟨t, ht, hop⟩ := hholds
      obtain rfl := Option.some.inj ht
      obtain ⟨t', ht', hsame⟩ := Option.map_eq_some_iff.1 (hdays.trans (congrArg _ hadded))
      exact ⟨t', ht', by rwa [hsame]⟩
    · simpa only [LegacyCondition.holds, hcount] using hholds
    · simpa only [LegacyCondition.holds, hnever] using hholds
    · rcases hholds with hunwatched | ⟨t, ht, hop⟩
      · exact .inl (hnever.trans hunwatched)
      · obtain ⟨t', ht', hsame⟩ := Option.map_eq_some_iff.1 (hlast t ht)
        exact .inr ⟨t', ht', by rwa [hsame]⟩
  · intro h
    have hnever : (s.mergedState row).neverWatched = (s.seen item).state.neverWatched := by
      cases hseen : (s.seen item).state.neverWatched with
      | true =>
          have hholds := h ⟨.neverWatched, .eq, 1⟩ (by simp [LegacyCondition.holds, hseen])
          exact hholds.2 (by simp)
      | false =>
          have hholds := h ⟨.neverWatched, .eq, 0⟩ (by simp [LegacyCondition.holds, hseen])
          simpa [LegacyCondition.holds] using hholds
    refine ⟨?_, ?_, hnever, ?_⟩
    · obtain ⟨t, ht, hop⟩ := h ⟨.daysSinceAdded, .eq, daysBetween s.rt.now added⟩
        ⟨added, rfl, num_eq_iff.2 rfl⟩
      rw [hadded, ht]
      exact congrArg some (num_eq_iff.1 hop)
    · exact num_eq_iff.1 (h ⟨.playCount, .eq, (s.seen item).state.playCount⟩ (num_eq_iff.2 rfl))
    · intro t ht
      have hseen : (s.mergedState row).neverWatched ≠ true := by
        rw [hnever]
        intro hunwatched
        rw [hwell.played_eq hunwatched] at ht
        cases ht
      obtain ⟨t', ht', hop⟩ := (h ⟨.daysNotWatched, .eq, daysBetween s.rt.now t⟩
        (.inr ⟨t, ht, num_eq_iff.2 rfl⟩)).resolve_left hseen
      rw [ht']
      exact congrArg some (num_eq_iff.1 hop)

/-- The conditions of the library, one by one. -/
theorem conditionsHold_withConditions {stored : List (Option LegacyCondition)}
    {logic : RuleOperator} {added : Option Instant} {st : WatchState} :
    (s.withConditions stored logic).conditionsHold added st = true ↔
      countingConditions logic stored ≠ [] ∧
        logic.combines (countingConditions logic stored) (·.holds s.rt.now added st) :=
  evaluateConditions_iff

/-- A row that resembles an item passes the check where the conditions hold of the item. -/
theorem Resembles.conditionsHold {added : Instant} {stored : List (Option LegacyCondition)}
    {logic : RuleOperator} (h : s.Resembles row item) (hadded : item.dateCreated.parse = some added)
    (hholds : (s.withConditions stored logic).conditionsHold (some added) (s.seen item).state =
      true) : (s.withConditions stored logic).keeps row = true := by
  obtain ⟨hnonempty, hcombines⟩ := conditionsHold_withConditions.1 hholds
  refine conditionsHold_withConditions.2 ⟨hnonempty, ?_⟩
  have htells := (resembles_iff hadded).1 h
  cases logic with
  | and => exact fun c hc => htells c (hcombines c hc)
  | or =>
      obtain ⟨c, hc, hitem⟩ := hcombines
      exact ⟨c, hc, htells c hitem⟩

/-! ### The law -/

/-- A safe row stays whatever the conditions are, if a scan would queue its items. -/
theorem Safe.keeps {stored : List (Option LegacyCondition)} {logic : RuleOperator}
    (h : s.Safe row) (hjustified : (s.withConditions stored logic).Justified row) :
    (s.withConditions stored logic).keeps row = true := by
  obtain ⟨⟨item, hitem, hstands⟩, hselects⟩ := hjustified
  rcases h with hnone | ⟨item', hitem', hstands', hcase⟩
  · exact absurd hstands (hnone item hitem)
  · obtain ⟨hqueueable, hby⟩ := selects_iff.1 (hselects item' hitem' hstands')
    rcases hcase with hblocked | ⟨hrules, hcase⟩
    · exact absurd hqueueable hblocked
    · obtain ⟨added, hadded, hholds, hpasses⟩ := hby.resolve_right hrules
      rcases hcase with hundated | hrejects | hresembles
      · rw [hundated] at hadded
        cases hadded
      · exact absurd (hrejects.symm.trans hpasses) (by decide)
      · exact hresembles.conditionsHold hadded hholds

/-- **A consolidated row resembles no item that was played**: no user knows its identifier. -/
theorem not_resembles_of_played (hgen : s.Genuine) (hid : isConsolidatedId row.embyId = true)
    (hplayed : (s.seen item).state.neverWatched = false) : ¬ s.Resembles row item := by
  intro h
  have hwell : (s.seen item).state.WellFormed := aggregateUserData_wellFormed _ _
  have hcount := h.playCount
  rw [playCount_mergedState hgen hid] at hcount
  exact (hwell.count_pos hplayed).ne hcount

/-! ### What goes and what stays -/

/-- The plays of a row are those of its item, unless the activity log knows more, or the row stores
a play that the users no longer have. -/
theorem mergedState_eq_state (hid : item.id = row.embyId) (hlogged : item.logged = .absent)
    (hplayed : NotLater (row.lastPlayed.bind s.rt.parseIsoDt) (s.seen item).state.lastPlayed) :
    s.mergedState row = (s.seen item).state := by
  have hstate : aggregateUserData .absent (s.data row.embyId) = (s.seen item).state := by
    rw [ScannedItem.state, seen, hlogged, hid]
  rw [mergedState, hstate]
  cases hstored : row.lastPlayed.bind s.rt.parseIsoDt with
  | none => rfl
  | some t =>
      obtain ⟨u, hu, hle⟩ := hplayed t hstored
      have hseen : (s.seen item).state.neverWatched = false := by
        have hwell : (s.seen item).state.WellFormed := aggregateUserData_wellFormed _ _
        by_contra hnever
        rw [hwell.played_eq (by simpa using hnever)] at hu
        cases hu
      simp only [laterPlay, hu, not_lt.2 hle, if_false]
      rw [← hseen, ← hu]

/-- **A row that agrees with its item stays** while the conditions select the item. -/
theorem mem_of_agrees (hrow : row ∈ q.rows) (hid : item.id = row.embyId)
    (hadded : row.addedDate.bind s.rt.parseIsoDt = item.dateCreated.parse)
    (hlogged : item.logged = .absent)
    (hplayed : NotLater (row.lastPlayed.bind s.rt.parseIsoDt) (s.seen item).state.lastPlayed)
    (hby : s.ByConditions item) : row ∈ (reevaluateLibraryQueue s q).1.rows := by
  refine mem_reevaluateLibraryQueue.2 ⟨hrow, fun _ _ => ?_⟩
  obtain ⟨added, hcreated, hholds, _⟩ := hby
  rw [keeps, hadded, hcreated, mergedState_eq_state hid hlogged hplayed]
  exact hholds

/-- The row that the rule has queued. -/
def filmRow : QueueRow where
  id := 1
  embyId := "f1"
  title := "Film"
  mediaType := "Movie"
  libraryId := "films"
  libraryName := "Films"
  filePath := "/films/1.mkv"
  detectedAt := "2025-01-01"
  deleteAt := "2025-01-08"

end Reevaluation

end Hygie
