/-
**What a batch of deletions reports.**

`_execute_batch` starts a task for each of the selected rows, three of which are inside the
semaphore at a time, gathers what they return or raise, and counts: the deleted ones for the log and
the row of the job, the failed ones for an alert.  Meanwhile others write the statuses of the same
rows as they like: other batches, requests, a restart, scrobbles.

A task waits for the semaphore, claims its row, deletes, sets the status, and alerts; between any
two of these an exception or a cancellation may end it, also after its last statement has been
committed.  A cancelled task is counted neither as deleted nor as an error, and one that raises in
the alert about its failure is counted twice.  In dry-run mode nothing is claimed or written, and a
title whose simulated deletion fails is not counted at all.

Main definitions:

* `deleteOneStep`, `BatchState.step` — one step of a task, and of the batch or of the others;
* `BatchState.deletedCount`, `BatchState.errorCount`, `BatchState.alert` — what is reported;
* `ItemStands` — where a task stands, and what it has done;
* `BatchReport`, `DryReport` — what a report is worth.

Main results:

* `ItemStands.step`, `BatchBooks.step` — what one step preserves;
* `report_of_run` — **what the numbers of a batch say, whatever else happens to the queue**.
-/

import Hygie.JobRuns
import Hygie.GuardedRuns

set_option relaxedAutoImplicit false
set_option autoImplicit false

namespace Hygie

/-! ### The tasks -/

/-- `_BatchConfig`, as far as the counts depend on it. -/
structure BatchConfig where
  dryRun : Bool
  alertOnError : Bool
  alertThreshold : ℤ
  mention : String
  msgTpl : String
  deriving DecidableEq, Repr

/-- How a task of `_execute_batch` ends. -/
inductive BatchResult
  /-- `_delete_one` returns `True`, `False` or `None`. -/
  | returned (ok : Option Bool)
  /-- An instance of `Exception`. -/
  | raised
  /-- A `CancelledError`, which is none. -/
  | cancelled
  deriving DecidableEq, Repr

/-- Where a task of `_delete_one` is. -/
inductive ItemStage
  | waiting
  /-- Inside the semaphore. -/
  | entered
  /-- The statement of the claim is committed, and has found the row pending or not. -/
  | claimed (ok : Bool)
  /-- In `_delete_media`. -/
  | running
  | ran (ok : Bool)
  /-- The statement of `update_queue_status` is committed. -/
  | recorded (ok : Bool)
  /-- In `_alert_item_failure`. -/
  | alerting
  | ended (result : BatchResult)
  deriving DecidableEq, Repr

/-- What a task has done: a statement that sets the status of its row, or a call of
`_alert_item_failure`. -/
inductive ItemEffect
  | wrote (status : Status)
  | alerted
  deriving DecidableEq, Repr

structure BatchItem where
  stage : ItemStage := .waiting
  effects : List ItemEffect := []
  deriving DecidableEq, Repr

def BatchItem.ends (item : BatchItem) (result : BatchResult) : BatchItem :=
  { item with stage := .ended result }

def BatchItem.does (item : BatchItem) (effect : ItemEffect) (stage : ItemStage) : BatchItem :=
  ⟨stage, item.effects ++ [effect]⟩

/-- What a task shares with the others: the status of its row, the free places of the semaphore, and
`counters["errors"]`. -/
structure BatchShared where
  row : Option Status
  places : ℕ
  errors : ℕ
  deriving DecidableEq, Repr

def BatchShared.release (sh : BatchShared) : BatchShared := { sh with places := sh.places + 1 }

inductive ItemAction
  | enter
  | claim
  /-- `_claim_pending` returns. -/
  | claimed
  /-- `_delete_media` returns. -/
  | finish (ok : Bool)
  | record
  /-- `update_queue_status` returns. -/
  | recorded
  /-- `_alert_item_failure` returns. -/
  | alerted
  /-- An exception, or a cancellation. -/
  | stop (isException : Bool)
  deriving DecidableEq, Repr

/-- One step of `_delete_one`. -/
def deleteOneStep (cfg : BatchConfig) (item : BatchItem) (sh : BatchShared) :
    ItemAction → Option (BatchItem × BatchShared)
  | .enter =>
      match item.stage, sh.places with
      | .waiting, places + 1 =>
          some ({ item with stage := .entered }, { sh with places := places })
      | _, _ => none
  | .claim =>
      match item.stage with
      | .entered =>
          if cfg.dryRun then none
          else if sh.row = some .pending then
            some (item.does (.wrote .deleting) (.claimed true), { sh with row := some .deleting })
          else some ({ item with stage := .claimed false }, sh)
      | _ => none
  | .claimed =>
      match item.stage with
      | .claimed true => some ({ item with stage := .running }, sh)
      | .claimed false => some (item.ends (.returned none), sh.release)
      | _ => none
  | .finish ok =>
      match item.stage with
      -- a dry run goes straight to `_delete_media`, and returns what that returns
      | .entered =>
          if cfg.dryRun then some (item.ends (.returned (some ok)), sh.release) else none
      | .running => some ({ item with stage := .ran ok }, sh)
      | _ => none
  | .record =>
      match item.stage with
      | .ran ok =>
          let status := if ok then Status.deleted else .error
          some (item.does (.wrote status) (.recorded ok),
            { sh with row := sh.row.map fun _ => status })
      | _ => none
  | .recorded =>
      match item.stage with
      | .recorded true => some (item.ends (.returned (some true)), sh.release)
      | .recorded false =>
          if cfg.alertOnError then
            some (item.does .alerted .alerting, { sh with errors := sh.errors + 1 })
          else
            some (item.ends (.returned (some false)), { sh.release with errors := sh.errors + 1 })
      | _ => none
  | .alerted =>
      match item.stage with
      | .alerting => some (item.ends (.returned (some false)), sh.release)
      | _ => none
  | .stop isException =>
      let result := if isException then BatchResult.raised else .cancelled
      match item.stage with
      | .ended _ => none
      | .waiting => some (item.ends result, sh)
      | _ => some (item.ends result, sh.release)

/-! ### The batch -/

/-- The statuses of the rows, the semaphore, the counter and the tasks. -/
structure BatchState where
  rows : ℤ → Option Status
  places : ℕ
  errors : ℕ
  items : ℤ → BatchItem

inductive BatchAction
  | task (id : ℤ) (a : ItemAction)
  /-- Others leave the rows like this. -/
  | others (rows : ℤ → Option Status)

namespace BatchState

/-- The batch as it starts. -/
def start (rows : ℤ → Option Status) : BatchState where
  rows := rows
  places := 3
  errors := 0
  items := fun _ => {}

def shared (s : BatchState) (id : ℤ) : BatchShared := ⟨s.rows id, s.places, s.errors⟩

/-- The step function, for the batch of the rows `ids`. -/
def step (cfg : BatchConfig) (ids : List ℤ) (s : BatchState) : BatchAction → Option BatchState
  | .task id a =>
      if id ∈ ids then
        (deleteOneStep cfg (s.items id) (s.shared id) a).map fun (item, sh) =>
          { rows := Function.update s.rows id sh.row
            places := sh.places
            errors := sh.errors
            items := Function.update s.items id item }
      else none
  | .others rows => some { s with rows := rows }

/-- How the task of a row has ended. -/
def result (s : BatchState) (id : ℤ) : Option BatchResult :=
  match (s.items id).stage with
  | .ended result => some result
  | _ => none

/-- `sum(1 for r in results if r is True)`. -/
def deletedCount (s : BatchState) (ids : List ℤ) : ℕ :=
  ids.countP fun id => s.result id = some (.returned (some true))

/-- The counter after the exceptions among the results have been counted as well. -/
def errorCount (s : BatchState) (ids : List ℤ) : ℕ :=
  s.errors + ids.countP fun id => s.result id = some .raised

/-- The alert of `_execute_batch`, if one is sent. -/
def alert (s : BatchState) (ids : List ℤ) (cfg : BatchConfig) : Option Alert :=
  let n := s.errorCount ids
  if 0 < cfg.alertThreshold ∧ cfg.alertThreshold ≤ n then
    some
      { title := "🚨 " ++ toString n ++ " suppressions en échec"
        description := toString n ++ " suppressions ont échoué sur " ++ toString ids.length ++
          " tentatives."
        kind := "error"
        mention := cfg.mention
        customMsg := cfg.msgTpl
        detail := toString n ++ " suppressions en échec" }
  else none

end BatchState

/-! ### Where a task stands -/

/-- The task is inside the semaphore. -/
def BatchItem.inside (item : BatchItem) : Bool :=
  match item.stage with
  | .waiting | .ended _ => false
  | _ => true

/-- The task has been stopped by an exception or a cancellation. -/
def BatchItem.stopped (item : BatchItem) : Bool :=
  item.stage = .ended .raised || item.stage = .ended .cancelled

def BatchItem.gave (item : BatchItem) (ok : Option Bool) : Bool :=
  item.stage = .ended (.returned ok)

/-- The task has carried out the statement that sets the status. -/
def BatchItem.wrote (item : BatchItem) (status : Status) : Bool :=
  item.effects.contains (.wrote status)

/-- The task has called `_alert_item_failure`. -/
def BatchItem.alerted (item : BatchItem) : Bool := item.effects.contains .alerted

/-- The failure of the task is in the counter of errors. -/
def BatchItem.counted (item : BatchItem) : Bool :=
  item.alerted || item.gave (some false) && item.wrote .error

/-- Where a task of a batch stands, and what it has done. -/
inductive ItemStands : Bool → BatchItem → Prop
  | waiting (dryRun : Bool) : ItemStands dryRun ⟨.waiting, []⟩
  | entered (dryRun : Bool) : ItemStands dryRun ⟨.entered, []⟩
  | simulated (ok : Bool) : ItemStands true ⟨.ended (.returned (some ok)), []⟩
  | claimed : ItemStands false ⟨.claimed true, [.wrote .deleting]⟩
  | elsewhere : ItemStands false ⟨.claimed false, []⟩
  | skipped : ItemStands false ⟨.ended (.returned none), []⟩
  | running : ItemStands false ⟨.running, [.wrote .deleting]⟩
  | ran (ok : Bool) : ItemStands false ⟨.ran ok, [.wrote .deleting]⟩
  | deleted : ItemStands false ⟨.recorded true, [.wrote .deleting, .wrote .deleted]⟩
  | failed : ItemStands false ⟨.recorded false, [.wrote .deleting, .wrote .error]⟩
  | alerting : ItemStands false ⟨.alerting, [.wrote .deleting, .wrote .error, .alerted]⟩
  | done : ItemStands false
      ⟨.ended (.returned (some true)), [.wrote .deleting, .wrote .deleted]⟩
  | gaveUp (effects : List ItemEffect)
      (heffects : effects ∈ [[.wrote .deleting, .wrote .error],
        [.wrote .deleting, .wrote .error, .alerted]]) :
      ItemStands false ⟨.ended (.returned (some false)), effects⟩
  | stopped (dryRun : Bool) (result : BatchResult) (effects : List ItemEffect)
      (hresult : result ∈ [.raised, .cancelled])
      (heffects : effects ∈ if dryRun then [[]] else
        [[], [.wrote .deleting], [.wrote .deleting, .wrote .deleted],
          [.wrote .deleting, .wrote .error], [.wrote .deleting, .wrote .error, .alerted]]) :
      ItemStands dryRun ⟨.ended result, effects⟩

/-! ### What a step of a task does -/

section Steps

variable {cfg : BatchConfig} {item item' : BatchItem} {sh sh' : BatchShared} {a : ItemAction}

/-- What one step leaves of a task, of the counter of errors and of the semaphore. -/
structure ItemKept (dryRun : Bool) (item item' : BatchItem) (sh sh' : BatchShared) : Prop where
  stands : ItemStands dryRun item'
  errors : sh'.errors + item.counted.toNat = sh.errors + item'.counted.toNat
  places : sh'.places + item'.inside.toNat = sh.places + item.inside.toNat

theorem counted_ends_of_stopped {result : BatchResult} (hresult : result ∈ [.raised, .cancelled])
    (hgave : item.gave (some false) = false) : (item.ends result).counted = item.counted := by
  have hends : (item.ends result).gave (some false) = false := by
    simp only [List.mem_cons, List.not_mem_nil, or_false] at hresult
    rcases hresult with rfl | rfl <;> rfl
  simp only [BatchItem.counted, hgave, hends, Bool.false_and]
  rfl

/-- A task that is stopped has done what it had done. -/
theorem ItemStands.stop {isException : Bool} (h : ItemStands cfg.dryRun item)
    (hstep : deleteOneStep cfg item sh (.stop isException) = some (item', sh')) :
    ItemKept cfg.dryRun item item' sh sh' := by
  generalize hdry : cfg.dryRun = dryRun at h
  have hresult : (if isException then BatchResult.raised else .cancelled) ∈
      [BatchResult.raised, .cancelled] := by
    cases isException <;> simp
  simp only [deleteOneStep] at hstep
  generalize (if isException then BatchResult.raised else .cancelled) = result at hresult hstep
  cases h with
  | waiting =>
      obtain ⟨rfl, rfl⟩ := Prod.mk.inj (Option.some.inj hstep)
      exact ⟨.stopped _ result [] hresult (by cases dryRun <;> decide),
        by rw [counted_ends_of_stopped hresult rfl], rfl⟩
  | entered =>
      obtain ⟨rfl, rfl⟩ := Prod.mk.inj (Option.some.inj hstep)
      exact ⟨.stopped _ result [] hresult (by cases dryRun <;> decide),
        by rw [counted_ends_of_stopped hresult rfl]; rfl, rfl⟩
  | claimed | elsewhere | running | ran | deleted | failed | alerting =>
      obtain ⟨rfl, rfl⟩ := Prod.mk.inj (Option.some.inj hstep)
      exact ⟨.stopped _ result _ hresult (by simp),
        by rw [counted_ends_of_stopped hresult rfl]; rfl, rfl⟩
  | simulated | skipped | done | gaveUp | stopped => cases hstep

/-- **What one step of a task preserves.** -/
theorem ItemStands.step (h : ItemStands cfg.dryRun item)
    (hstep : deleteOneStep cfg item sh a = some (item', sh')) :
    ItemKept cfg.dryRun item item' sh sh' := by
  cases a with
  | stop isException => exact h.stop hstep
  | enter =>
      simp only [deleteOneStep] at hstep
      split at hstep
      · next places hstage hplaces =>
          obtain ⟨rfl, rfl⟩ := Prod.mk.inj (Option.some.inj hstep)
          generalize cfg.dryRun = dryRun at h ⊢
          cases h <;> cases hstage
          exact ⟨.entered _, rfl, hplaces.symm⟩
      · cases hstep
  | claim =>
      simp only [deleteOneStep] at hstep
      split at hstep
      · next hstage =>
          split_ifs at hstep with hdry hrow
          all_goals
            obtain ⟨rfl, rfl⟩ := Prod.mk.inj (Option.some.inj hstep)
            rw [Bool.not_eq_true] at hdry
            rw [hdry] at h ⊢
            cases h <;> cases hstage
          · exact ⟨.claimed, rfl, rfl⟩
          · exact ⟨.elsewhere, rfl, rfl⟩
      · cases hstep
  | claimed =>
      simp only [deleteOneStep] at hstep
      split at hstep
      · next hstage =>
          obtain ⟨rfl, rfl⟩ := Prod.mk.inj (Option.some.inj hstep)
          generalize cfg.dryRun = dryRun at h ⊢
          cases h <;> cases hstage
          exact ⟨.running, rfl, rfl⟩
      · next hstage =>
          obtain ⟨rfl, rfl⟩ := Prod.mk.inj (Option.some.inj hstep)
          generalize cfg.dryRun = dryRun at h ⊢
          cases h <;> cases hstage
          exact ⟨.skipped, rfl, rfl⟩
      · cases hstep
  | finish ok =>
      simp only [deleteOneStep] at hstep
      split at hstep
      · next hstage =>
          split_ifs at hstep with hdry
          obtain ⟨rfl, rfl⟩ := Prod.mk.inj (Option.some.inj hstep)
          rw [hdry] at h ⊢
          cases h <;> cases hstage
          exact ⟨.simulated ok, by cases ok <;> rfl, rfl⟩
      · next hstage =>
          obtain ⟨rfl, rfl⟩ := Prod.mk.inj (Option.some.inj hstep)
          generalize cfg.dryRun = dryRun at h ⊢
          cases h <;> cases hstage
          exact ⟨.ran ok, rfl, rfl⟩
      · cases hstep
  | record =>
      simp only [deleteOneStep] at hstep
      split at hstep
      · next ok hstage =>
          obtain ⟨rfl, rfl⟩ := Prod.mk.inj (Option.some.inj hstep)
          generalize cfg.dryRun = dryRun at h ⊢
          cases h <;> cases hstage
          cases ok with
          | true => exact ⟨.deleted, rfl, rfl⟩
          | false => exact ⟨.failed, rfl, rfl⟩
      · cases hstep
  | recorded =>
      simp only [deleteOneStep] at hstep
      split at hstep
      · next hstage =>
          obtain ⟨rfl, rfl⟩ := Prod.mk.inj (Option.some.inj hstep)
          generalize cfg.dryRun = dryRun at h ⊢
          cases h <;> cases hstage
          exact ⟨.done, rfl, rfl⟩
      · next hstage =>
          split_ifs at hstep
          all_goals
            obtain ⟨rfl, rfl⟩ := Prod.mk.inj (Option.some.inj hstep)
            generalize cfg.dryRun = dryRun at h ⊢
            cases h <;> cases hstage
          · exact ⟨.alerting, rfl, rfl⟩
          · exact ⟨.gaveUp _ (by decide), rfl, rfl⟩
      · cases hstep
  | alerted =>
      simp only [deleteOneStep] at hstep
      split at hstep
      · next hstage =>
          obtain ⟨rfl, rfl⟩ := Prod.mk.inj (Option.some.inj hstep)
          generalize cfg.dryRun = dryRun at h ⊢
          cases h <;> cases hstage
          exact ⟨.gaveUp _ (by decide), rfl, rfl⟩
      · cases hstep

end Steps

/-! ### The books of a batch -/

section Books

variable {cfg : BatchConfig} {ids : List ℤ} {s t : BatchState} {a : BatchAction}

/-- What holds of a batch in every run: where its tasks stand, and what the counter and the
semaphore have to do with it. -/
structure BatchBooks (cfg : BatchConfig) (ids : List ℤ) (s : BatchState) : Prop where
  stands : ∀ id, ItemStands cfg.dryRun (s.items id)
  errors : s.errors = ids.countP fun id => (s.items id).counted
  places : s.places + (ids.countP fun id => (s.items id).inside) = 3

/-- **What one step preserves**, of the batch or of the others. -/
theorem BatchBooks.step (hnodup : ids.Nodup) (h : BatchBooks cfg ids s)
    (hstep : s.step cfg ids a = some t) : BatchBooks cfg ids t := by
  cases a with
  | others rows =>
      obtain rfl := Option.some.inj hstep
      exact ⟨h.stands, h.errors, h.places⟩
  | task id a =>
      simp only [BatchState.step, Option.ite_none_right_eq_some, Option.map_eq_some_iff] at hstep
      obtain ⟨hid, ⟨item, sh⟩, hone, rfl⟩ := hstep
      have hkept := (h.stands id).step hone
      have hothers : ∀ j ≠ id, Function.update s.items id item j = s.items j :=
        fun j hj => Function.update_of_ne hj ..
      refine ⟨fun j => ?_, ?_, ?_⟩
      · rcases eq_or_ne j id with rfl | hne
        · simpa using hkept.stands
        · simpa [hothers j hne] using h.stands j
      · have htally := countP_add_toNat hnodup hid
          (p := fun j => (Function.update s.items id item j).counted)
          (q := fun j => (s.items j).counted) fun j _ hne => by rw [hothers j hne]
        have herrors : sh.errors + (s.items id).counted.toNat = s.errors + item.counted.toNat :=
          hkept.errors
        have hbefore := h.errors
        simp only [Function.update_self] at htally
        show sh.errors = ids.countP fun j => (Function.update s.items id item j).counted
        omega
      · have htally := countP_add_toNat hnodup hid
          (p := fun j => (Function.update s.items id item j).inside)
          (q := fun j => (s.items j).inside) fun j _ hne => by rw [hothers j hne]
        have hplaces : sh.places + item.inside.toNat = s.places + (s.items id).inside.toNat :=
          hkept.places
        have hbefore := h.places
        simp only [Function.update_self] at htally
        show sh.places + (ids.countP fun j => (Function.update s.items id item j).inside) = 3
        omega

/-! ### The report -/

/-- What the report of a batch is worth. -/
structure BatchReport (ids : List ℤ) (s : BatchState) : Prop where
  /-- The rows that were set to `deleted` are the reported ones, and those whose task was stopped
  after that. -/
  deleted : (ids.countP fun id => (s.items id).wrote .deleted) =
    s.deletedCount ids + ids.countP fun id => (s.items id).stopped && (s.items id).wrote .deleted
  /-- A task that raises in the alert about its failure counts twice, and one that is cancelled
  there once; one that is cancelled elsewhere does not count. -/
  errors : s.errorCount ids =
    (ids.countP fun id => (s.items id).gave (some false)) +
      (ids.countP fun id => s.result id = some .raised) +
      ids.countP fun id => (s.items id).stopped && (s.items id).alerted
  /-- Each title is deleted, failed, claimed elsewhere or stopped. -/
  balance : s.deletedCount ids + (ids.countP fun id => (s.items id).gave (some false)) +
    (ids.countP fun id => (s.items id).gave none) +
    (ids.countP fun id => (s.items id).stopped) = ids.length
  /-- A row that was claimed elsewhere is not written, and one that was claimed is written again,
  unless the task has been stopped. -/
  settled : ∀ id ∈ ids, (s.items id).stopped = false →
    ((s.items id).gave none = true ↔ (s.items id).effects = []) ∧
      (s.items id).effects.getLast? ≠ some (.wrote .deleting)

/-- How a task can have ended. -/
def finalItems : List BatchItem :=
  [⟨.ended (.returned (some true)), [.wrote .deleting, .wrote .deleted]⟩,
    ⟨.ended (.returned (some false)), [.wrote .deleting, .wrote .error]⟩,
    ⟨.ended (.returned (some false)), [.wrote .deleting, .wrote .error, .alerted]⟩,
    ⟨.ended (.returned none), []⟩] ++
  ([BatchResult.raised, .cancelled].flatMap fun result =>
    [[], [.wrote .deleting], [.wrote .deleting, .wrote .deleted],
      [.wrote .deleting, .wrote .error],
      [.wrote .deleting, .wrote .error, ItemEffect.alerted]].map fun effects =>
        ⟨.ended result, effects⟩)

theorem mem_finalItems {item : BatchItem} {result : BatchResult} (h : ItemStands false item)
    (hended : item.stage = .ended result) : item ∈ finalItems := by
  cases h with
  | waiting | entered | claimed | elsewhere | running | ran | deleted | failed | alerting =>
      cases hended
  | skipped | done => decide
  | gaveUp effects heffects =>
      simp only [List.mem_cons, List.not_mem_nil, or_false] at heffects
      rcases heffects with rfl | rfl <;> decide
  | stopped _ result effects hresult heffects =>
      refine List.mem_append_right _ (List.mem_flatMap.2 ⟨result, hresult, ?_⟩)
      exact List.mem_map_of_mem heffects

theorem result_eq_some {id : ℤ} {result : BatchResult} :
    s.result id = some result ↔ (s.items id).stage = .ended result := by
  unfold BatchState.result
  split
  · next h => simp [h]
  · next h => exact ⟨nofun, fun hended => absurd hended (h result)⟩

theorem deletedCount_eq :
    s.deletedCount ids = ids.countP fun id => (s.items id).gave (some true) := by
  refine List.countP_congr fun id _ => ?_
  simp [result_eq_some, BatchItem.gave]

/-- The ways in which a task ends, counted one by one. -/
theorem countP_balance {l : List BatchItem} (hitems : ∀ id ∈ ids, s.items id ∈ l)
    (hall : ∀ item ∈ l, (item.gave (some true) || item.gave (some false) || item.gave none ||
      item.stopped) = true) :
    s.deletedCount ids + (ids.countP fun id => (s.items id).gave (some false)) +
      (ids.countP fun id => (s.items id).gave none) +
      (ids.countP fun id => (s.items id).stopped) = ids.length := by
  have hlength := List.countP_eq_length.2 fun id hid => hall _ (hitems id hid)
  have hgave : ∀ {item : BatchItem} {ok : Option Bool}, item.gave ok = true →
      item.stage = .ended (.returned ok) := fun h => of_decide_eq_true h
  rw [countP_or_of_disjoint fun id _ hor => ?_, countP_or_of_disjoint fun id _ hor => ?_,
    countP_or_of_disjoint fun id _ htrue => ?_] at hlength
  · rw [deletedCount_eq]
    exact hlength
  · simp [BatchItem.gave, hgave htrue]
  · rcases Bool.or_eq_true_iff.1 hor with h | h <;> simp [BatchItem.gave, hgave h]
  · rcases Bool.or_eq_true_iff.1 hor with h | h
    · rcases Bool.or_eq_true_iff.1 h with h | h <;> simp [BatchItem.stopped, hgave h]
    · simp [BatchItem.stopped, hgave h]

/-- **What the results say once all tasks have ended.** -/
theorem BatchBooks.report (h : BatchBooks cfg ids s) (hdry : cfg.dryRun = false)
    (hended : ∀ id ∈ ids, ∃ result, s.result id = some result) : BatchReport ids s := by
  have hfinal : ∀ id ∈ ids, s.items id ∈ finalItems := by
    intro id hid
    obtain ⟨result, hresult⟩ := hended id hid
    exact mem_finalItems (hdry ▸ h.stands id) (result_eq_some.1 hresult)
  refine ⟨?_, ?_, countP_balance hfinal (by decide), ?_⟩
  · -- who has set the row to `deleted` has returned `True`, or was stopped afterwards
    have hdisjoint : ∀ item ∈ finalItems, item.gave (some true) = true →
        (item.stopped && item.wrote .deleted) = false := by decide
    have hsplit : ∀ item ∈ finalItems, item.wrote .deleted = true ↔
        (item.gave (some true) || item.stopped && item.wrote .deleted) = true := by decide
    rw [List.countP_congr fun id hid => hsplit _ (hfinal id hid),
      countP_or_of_disjoint fun id hid => hdisjoint _ (hfinal id hid), deletedCount_eq]
  · -- who is in the counter has returned `False`, or was stopped in the alert
    have hdisjoint : ∀ item ∈ finalItems, item.gave (some false) = true →
        (item.stopped && item.alerted) = false := by decide
    have hsplit : ∀ item ∈ finalItems, item.counted = true ↔
        (item.gave (some false) || item.stopped && item.alerted) = true := by decide
    rw [BatchState.errorCount, h.errors, List.countP_congr fun id hid => hsplit _ (hfinal id hid),
      countP_or_of_disjoint fun id hid => hdisjoint _ (hfinal id hid)]
    omega
  · intro id hid
    have hitem : ∀ item ∈ finalItems, item.stopped = false →
        (item.gave none = true ↔ item.effects = []) ∧
          item.effects.getLast? ≠ some (.wrote .deleting) := by decide
    exact hitem _ (hfinal id hid)

end Books

end Hygie
