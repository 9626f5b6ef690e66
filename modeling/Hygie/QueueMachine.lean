/-
**The queue and everybody who works on it.**

Many parties work on `media_queue` at the same time.  Every batch of `run_deletion` has one task for
each selected row, three of which are inside the semaphore at a time; a delete-now request handles
one row; a bulk request handles the rows it selected, one after the other.  `_delete_one` and
`delete_now` claim the row (`pending` to `deleting`), run the pipeline and write the status; `bulk`
runs the pipeline without a claim.  A worker that starts sets every `deleting` row back, and a Plex
scrobble sets the rows of an item back.

A statement of SQL is one step, and the parties take their steps in any order.  A pipeline takes a
step when it starts and one when it returns; it never raises (`wp_execute_returns`), so that an
exception or a cancellation is a step of its own, `stop`, possible wherever a task awaits.  The lock
of `run_deletion` is not in the model: any number of batches may run.  A batch and a delete-now
request in dry-run mode claim nothing, run no pipeline and write nothing, so they are no parties; a
bulk request in dry-run mode does write.

The queue is a board of claims: `QueueState.board` is what the rows and the tasks are as one, and
`QueueState.label` what each step is on it.

Main definitions:

* `Actor`, `Task`, `QueueState` — the parties, where each of them stands, and the state;
* `Action`, `QueueState.step` — the steps;
* `QueueState.board`, `QueueState.label` — the queue as a board of claims.

Main results:

* `QueueState.board_step` — **every step of the queue is a move on the board**.
-/

import Hygie.ClaimBoard
import Hygie.GuardedRuns
import Hygie.Schema

set_option relaxedAutoImplicit false
set_option autoImplicit false

namespace Hygie

/-! ### The parties -/

/-- Who works on the queue: a row of a batch, a delete-now request, or a bulk request. -/
inductive Actor
  | item (batch : ℕ) (id : ℤ)
  | deleteNow (request : ℕ)
  | bulk (request : ℕ)
  deriving DecidableEq, Repr

/-- Where an actor stands. -/
inductive Task
  /-- Not there yet. -/
  | absent
  /-- Before `async with sem`. -/
  | waiting (id : ℤ)
  /-- Before the claim. -/
  | ready (id : ℤ)
  /-- The claim is committed. -/
  | claimed (id : ℤ)
  /-- In `_delete_media`. -/
  | executing (id : ℤ)
  /-- Before `update_queue_status`. -/
  | returned (id : ℤ) (ok : Bool)
  /-- In `_alert_item_failure`. -/
  | alerting
  /-- In the loop of `bulk`, with the rows still to be handled. -/
  | looping (dryRun : Bool) (rows : List ℤ)
  /-- In `_delete_media`, called by `bulk`. -/
  | bulkExecuting (dryRun : Bool) (id : ℤ) (rows : List ℤ)
  /-- Back from it. -/
  | bulkReturned (dryRun : Bool) (id : ℤ) (rows : List ℤ) (ok : Bool)
  /-- Returned, failed or cancelled. -/
  | finished
  deriving DecidableEq, Repr

namespace Task

/-- The row a task has claimed and not given up. -/
def holds : Task → Option ℤ
  | claimed id | executing id | returned id _ => some id
  | _ => none

/-- The row a bulk request is at. -/
def visits : Task → Option ℤ
  | bulkExecuting _ id _ | bulkReturned _ id _ _ => some id
  | _ => none

/-- The row whose deletion pipeline is executing; `_delete_media` runs none in dry-run mode. -/
def works : Task → Option ℤ
  | executing id | bulkExecuting false id _ => some id
  | _ => none

end Task

/-- The stored rows, the free places in the semaphore of every batch that has started, and where
every actor stands. -/
structure QueueState where
  rows : ℤ → Option QueueRow
  places : ℕ → Option ℕ
  tasks : Actor → Task

namespace QueueState

/-- Nobody works on the given rows. -/
def start (rows : ℤ → Option QueueRow) : QueueState where
  rows := rows
  places := fun _ => none
  tasks := fun _ => .absent

/-- The status of a row. -/
def statusOf (s : QueueState) (id : ℤ) : Option Status := (s.rows id).map (·.status)

/-- The item a row stands for. -/
def embyIdOf (s : QueueState) (id : ℤ) : Option String := (s.rows id).map (·.embyId)

end QueueState

/-! ### The steps -/

/-- The steps: of the parties in the order of their code, of a worker that starts, and of the Plex
webhook. -/
inductive Action
  /-- A batch begins: the `SELECT` of `run_deletion` gave these rows. -/
  | select (batch : ℕ) (ids : List ℤ)
  | enter (batch : ℕ) (id : ℤ)
  | request (request : ℕ) (id : ℤ)
  /-- A bulk request begins: its `SELECT` gave these rows. -/
  | bulkRequest (request : ℕ) (dryRun : Bool) (ids : List ℤ)
  | claim (t : Actor)
  | begin (t : Actor)
  | finish (t : Actor) (ok : Bool)
  | record (t : Actor)
  | alerted (t : Actor)
  /-- An await raises or is cancelled. -/
  | stop (t : Actor)
  | startup
  | scrobble (embyId : String) (lastPlayed : String)
  deriving DecidableEq, Repr

/-- The status that the last write of a run gives: a failed run leaves `error` behind in a batch
and `pending` after a delete-now request. -/
def Actor.outcome : Actor → Bool → Status
  | _, true => .deleted
  | .deleteNow _, false => .pending
  | _, false => .error

namespace QueueState

/-- `UPDATE media_queue SET status=? WHERE id=?`. -/
def updateStatus (s : QueueState) (id : ℤ) (status : Status) : QueueState :=
  { s with
    rows := Function.update s.rows id ((s.rows id).map fun r => { r with status := status }) }

/-- The actor goes on. -/
def move (s : QueueState) (t : Actor) (task : Task) : QueueState :=
  { s with tasks := Function.update s.tasks t task }

/-- The actor comes to its end, and a row of a batch frees its place in the semaphore. -/
def leave (s : QueueState) (t : Actor) : QueueState :=
  match t with
  | .item b _ =>
      { s with places := Function.update s.places b ((s.places b).map (· + 1))
               tasks := Function.update s.tasks t .finished }
  | _ => s.move t .finished

/-- `claim_for_deletion`: the update of a `pending` row to `deleting`.  Whoever finds the row in
another status leaves it alone. -/
def claimForDeletion (s : QueueState) (t : Actor) (id : ℤ) : QueueState :=
  if s.statusOf id = some .pending then (s.updateStatus id .deleting).move t (.claimed id)
  else s.leave t

/-- `reset_deleting_to_pending`. -/
def resetDeletingToPending (s : QueueState) : QueueState :=
  { s with rows := fun id => (s.rows id).map fun r =>
      if r.status = .deleting then { r with status := .pending } else r }

/-- `update_last_played_scrobble`: the update names the item, and no status. -/
def updateLastPlayedScrobble (s : QueueState) (embyId lastPlayed : String) : QueueState :=
  { s with rows := fun id => (s.rows id).map fun r =>
      if r.embyId = embyId then { r with status := .pending, lastPlayed := some lastPlayed }
      else r }

/-- One step; nothing where the actor does not stand before it. -/
def step (s : QueueState) : Action → Option QueueState
  | .select b ids =>
      if s.places b = none ∧
          ∀ id ∈ ids, s.tasks (.item b id) = .absent ∧ s.statusOf id = some .pending then
        some
          { s with places := Function.update s.places b (some 3)
                   tasks := fun t =>
                    match t with
                    | .item b' id => if b' = b ∧ id ∈ ids then .waiting id else s.tasks t
                    | _ => s.tasks t }
      else none
  | .enter b id =>
      match s.tasks (.item b id), s.places b with
      | .waiting i, some (n + 1) =>
          some
            ({ s with places := Function.update s.places b (some n) }.move (.item b id) (.ready i))
      | _, _ => none
  | .request r id =>
      if s.tasks (.deleteNow r) = .absent then some (s.move (.deleteNow r) (.ready id)) else none
  | .bulkRequest r dryRun ids =>
      if s.tasks (.bulk r) = .absent ∧ ids.Nodup ∧ ∀ id ∈ ids, s.statusOf id ≠ none then
        some (s.move (.bulk r) (.looping dryRun ids))
      else none
  | .claim t =>
      match s.tasks t with
      | .ready id => some (s.claimForDeletion t id)
      | _ => none
  | .begin t =>
      match s.tasks t with
      | .claimed id => some (s.move t (.executing id))
      | .looping dryRun (id :: rows) => some (s.move t (.bulkExecuting dryRun id rows))
      | .looping _ [] => some (s.leave t)
      | _ => none
  | .finish t ok =>
      match s.tasks t with
      | .executing id => some (s.move t (.returned id ok))
      | .bulkExecuting dryRun id rows =>
          -- a simulated deletion succeeds
          if dryRun = true ∧ ok = false then none
          else some (s.move t (.bulkReturned dryRun id rows ok))
      | _ => none
  | .record t =>
      match s.tasks t with
      | .returned id ok =>
          match t, ok with
          | .item _ _, false => some ((s.updateStatus id (t.outcome ok)).move t .alerting)
          | _, _ => some ((s.updateStatus id (t.outcome ok)).leave t)
      | .bulkReturned dryRun id rows ok =>
          if ok then some ((s.updateStatus id .deleted).move t (.looping dryRun rows))
          else some (s.move t (.looping dryRun rows))
      | _ => none
  | .alerted t =>
      match s.tasks t with
      | .alerting => some (s.leave t)
      | _ => none
  | .stop t =>
      match s.tasks t with
      | .absent | .finished => none
      | .waiting _ => some (s.move t .finished)
      | _ => some (s.leave t)
  | .startup => some s.resetDeletingToPending
  | .scrobble embyId lastPlayed => some (s.updateLastPlayedScrobble embyId lastPlayed)

/-! ### The queue as a board of claims -/

section Board

variable {s s' : QueueState} {t : Actor} {id : ℤ}

/-- The status of every row, and what every actor holds, visits and works on. -/
def board (s : QueueState) : Board ℤ Actor (Option Status) where
  status := s.statusOf
  holds := fun t => (s.tasks t).holds
  visits := fun t => (s.tasks t).visits
  works := fun t => (s.tasks t).works

@[simp] theorem board_status : s.board.status id = s.statusOf id := rfl

@[simp] theorem board_holds : s.board.holds t = (s.tasks t).holds := rfl

@[simp] theorem board_visits : s.board.visits t = (s.tasks t).visits := rfl

@[simp] theorem board_works : s.board.works t = (s.tasks t).works := rfl

@[simp] theorem move_rows {task : Task} : (s.move t task).rows = s.rows := rfl

@[simp] theorem leave_rows : (s.leave t).rows = s.rows := by cases t <;> rfl

theorem leave_tasks : (s.leave t).tasks = (s.move t .finished).tasks := by cases t <;> rfl

/-- A claim is nothing to the other actors. -/
theorem claimForDeletion_tasks {u : Actor} (hu : u ≠ t) :
    (s.claimForDeletion t id).tasks u = s.tasks u := by
  simp only [claimForDeletion]
  split_ifs
  · simp [move, updateStatus, hu]
  · simp [leave_tasks, move, hu]

/-- Only the claims, the visit and the work of one actor change. -/
theorem board_move {task : Task} : (s.move t task).board =
    { s.board with
      holds := Function.update s.board.holds t task.holds
      visits := Function.update s.board.visits t task.visits
      works := Function.update s.board.works t task.works } := by
  simp only [board, move, Board.mk.injEq]
  refine ⟨rfl, ?_, ?_, ?_⟩ <;> funext u <;> simp only [Function.update_apply] <;> split_ifs <;> rfl

theorem board_leave : (s.leave t).board = (s.move t .finished).board := by
  simp only [board, leave_tasks, Board.mk.injEq, and_self, and_true]
  funext id
  simp [statusOf]

/-- Only the status of one row changes. -/
theorem board_updateStatus {status : Status} : (s.updateStatus id status).board =
    { s.board with
      status := Function.update s.board.status id ((s.rows id).map fun _ => status) } := by
  simp only [board, updateStatus, Board.mk.injEq, and_self, and_true]
  funext j
  simp only [statusOf, Function.update_apply]
  split_ifs <;> simp [Function.comp_def]

theorem board_resetDeletingToPending :
    s.resetDeletingToPending.board = s.board.apply (some .pending) (some .deleting) (some .deleted)
      .recover := by
  simp only [board, resetDeletingToPending, Board.apply, Board.mk.injEq, and_self, and_true]
  funext id
  rcases Option.eq_none_or_eq_some (s.rows id) with hid | ⟨r, hid⟩
  · simp [statusOf, hid]
  · by_cases hr : r.status = .deleting <;> simp [statusOf, hid, hr]

theorem board_updateLastPlayedScrobble {embyId lastPlayed : String} :
    (s.updateLastPlayedScrobble embyId lastPlayed).board =
      s.board.apply (some .pending) (some .deleting) (some .deleted)
        (.reset fun id => s.embyIdOf id = some embyId) := by
  simp only [board, updateLastPlayedScrobble, Board.apply, Board.mk.injEq, and_self, and_true]
  funext id
  rcases Option.eq_none_or_eq_some (s.rows id) with hid | ⟨r, hid⟩
  · simp [statusOf, embyIdOf, hid]
  · by_cases hr : r.embyId = embyId <;> simp [statusOf, embyIdOf, hid, hr]

/-- What a step is on the board. -/
def label (s : QueueState) : Action → Move ℤ Actor (Option Status)
  | .claim t =>
      match s.tasks t with
      | .ready id => if s.statusOf id = some .pending then .claim t id else .idle
      | _ => .idle
  | .begin t =>
      match s.tasks t with
      | .claimed _ => .begin t
      | .looping false (id :: _) => .intrude t id
      | .looping true (id :: _) => .visit t id
      | _ => .idle
  | .finish t _ => .finish t
  | .record t =>
      match s.tasks t with
      | .returned id ok => .record t id ((s.rows id).map fun _ => t.outcome ok)
      | .bulkReturned _ id _ ok =>
          if ok = true ∧ s.rows id ≠ none then .overwrite t id else .withdraw t
      | _ => .idle
  | .stop t => .abandon t
  | .startup => .recover
  | .scrobble embyId _ => .reset fun id => s.embyIdOf id = some embyId
  | _ => .idle

/-- A scrobble of the item a row stands for. -/
def Scrobbles (s : QueueState) (id : ℤ) (a : Action) : Prop :=
  ∃ embyId lastPlayed, a = .scrobble embyId lastPlayed ∧ s.embyIdOf id = some embyId

/-! Which step a move on the board is. -/

theorem label_eq_record {a : Action} {status : Option Status}
    (h : s.label a = .record t id status) :
    a = .record t := by
  cases a <;> grind [label]

theorem label_eq_recover {a : Action} (h : s.label a = .recover) : a = .startup := by
  cases a <;> grind [label]

theorem label_eq_abandon {a : Action} (h : s.label a = .abandon t) : a = .stop t := by
  cases a <;> grind [label]

theorem label_eq_reset {a : Action} {keys : ℤ → Bool} (h : s.label a = .reset keys)
    (hid : keys id = true) : s.Scrobbles id a := by
  cases a <;> grind [label, Scrobbles]

/-- An actor that goes on with the same claims, visit and work leaves the board alone. -/
theorem board_move_eq {task : Task} (hholds : (s.tasks t).holds = task.holds)
    (hvisits : (s.tasks t).visits = task.visits) (hworks : (s.tasks t).works = task.works) :
    (s.move t task).board = s.board := by
  rw [board_move, ← hholds, ← hvisits, ← hworks]
  simp only [← board_holds, ← board_visits, ← board_works, Function.update_eq_self]

/-- A claim is a claim on the board if the row is `pending`, and nothing otherwise. -/
theorem board_claimForDeletion (htask : s.tasks t = .ready id) :
    s.board.Allows (some .pending) (some .deleting) (s.label (.claim t)) ∧
      (s.claimForDeletion t id).board =
        s.board.apply (some .pending) (some .deleting) (some .deleted) (s.label (.claim t)) := by
  simp only [label, htask, claimForDeletion]
  split_ifs with hpending
  · refine ⟨⟨hpending, by simp [htask, Task.holds]⟩, ?_⟩
    obtain ⟨r, hr, -⟩ := Option.map_eq_some_iff.1 hpending
    rw [board_move, board_updateStatus, hr]
    simp [Board.apply, Task.holds, Task.visits, Task.works, Function.update_eq_self_iff, htask]
  · refine ⟨trivial, ?_⟩
    rw [board_leave]
    exact board_move_eq (by simp [htask, Task.holds]) (by simp [htask, Task.visits])
      (by simp [htask, Task.works])

/-- The last write of a run is its record on the board. -/
theorem board_record {ok : Bool} {task : Task} (htask : s.tasks t = .returned id ok)
    (hholds : task.holds = none) (hvisits : task.visits = none) (hworks : task.works = none) :
    ((s.updateStatus id (t.outcome ok)).move t task).board =
      s.board.apply (some .pending) (some .deleting) (some .deleted)
        (.record t id ((s.rows id).map fun _ => t.outcome ok)) := by
  have hunvisited : (s.tasks t).visits = none := by simp [htask, Task.visits]
  have hstopped : (s.tasks t).works = none := by simp [htask, Task.works]
  rw [board_move, board_updateStatus, hholds, hvisits, hworks]
  simp [Board.apply, Function.update_eq_self_iff, hunvisited, hstopped]

/-- The write of a bulk request is an overwrite on the board if the row is still there. -/
theorem board_recordBulk {dryRun ok : Bool} {rows : List ℤ}
    (htask : s.tasks t = .bulkReturned dryRun id rows ok) (hid : s.rows id ≠ none) :
    ((s.updateStatus id .deleted).move t (.looping dryRun rows)).board =
      s.board.apply (some .pending) (some .deleting) (some .deleted) (.overwrite t id) := by
  obtain ⟨r, hr⟩ := Option.ne_none_iff_exists'.1 hid
  rw [board_move, board_updateStatus, hr]
  simp [Board.apply, Task.holds, Task.visits, Task.works, Function.update_eq_self_iff, htask]

/-- A bulk request that goes on without a write withdraws. -/
theorem board_withdraw {dryRun ok : Bool} {rows : List ℤ}
    (htask : s.tasks t = .bulkReturned dryRun id rows ok) :
    (s.move t (.looping dryRun rows)).board =
      s.board.apply (some .pending) (some .deleting) (some .deleted) (.withdraw t) := by
  rw [board_move]
  simp [Board.apply, Task.holds, Task.visits, Task.works, Function.update_eq_self_iff, htask]

/-- An update of a row that is not there. -/
theorem updateStatus_eq {status : Status} (hid : s.rows id = none) :
    s.updateStatus id status = s := by
  have hrows : Function.update s.rows id none = s.rows := hid ▸ Function.update_eq_self id s.rows
  simp only [updateStatus, hid, Option.map_none, hrows]

/-- **Every step of the queue is a move on the board.** -/
theorem board_step {a : Action} (h : s.step a = some s') :
    s.board.Allows (some .pending) (some .deleting) (s.label a) ∧
      s'.board = s.board.apply (some .pending) (some .deleting) (some .deleted) (s.label a) := by
  cases a with
  | select b ids =>
      simp only [step, Option.ite_none_right_eq_some, Option.some.injEq] at h
      obtain ⟨⟨-, hids⟩, rfl⟩ := h
      refine ⟨trivial, ?_⟩
      simp only [board, label, Board.apply, Board.mk.injEq]
      -- a batch that selects an item waits for it, and waiting is no holding, visit or work
      refine ⟨rfl, ?_, ?_, ?_⟩ <;> funext u <;> cases u with
      | item b' id =>
          simp only
          split_ifs with hid
          · simp [hid.1, hids id hid.2, Task.holds, Task.visits, Task.works]
          · rfl
      | deleteNow r => rfl
      | bulk r => rfl
  | enter b id =>
      simp only [step] at h
      split at h
      · next i n htask hplaces =>
          obtain rfl := Option.some.inj h
          refine ⟨trivial, board_move_eq ?_ ?_ ?_⟩ <;>
            simp [htask, Task.holds, Task.visits, Task.works]
      · cases h
  | request r id =>
      simp only [step, Option.ite_none_right_eq_some, Option.some.injEq] at h
      obtain ⟨htask, rfl⟩ := h
      refine ⟨trivial, board_move_eq ?_ ?_ ?_⟩ <;>
        simp [htask, Task.holds, Task.visits, Task.works]
  | bulkRequest r dryRun ids =>
      simp only [step, Option.ite_none_right_eq_some, Option.some.injEq] at h
      obtain ⟨⟨htask, -⟩, rfl⟩ := h
      refine ⟨trivial, board_move_eq ?_ ?_ ?_⟩ <;>
        simp [htask, Task.holds, Task.visits, Task.works]
  | claim t =>
      simp only [step] at h
      split at h
      · next id htask =>
          obtain rfl := Option.some.inj h
          exact board_claimForDeletion htask
      · cases h
  | begin t =>
      simp only [step] at h
      simp only [label]
      split at h
      · next id htask =>
          obtain rfl := Option.some.inj h
          rw [htask, board_move]
          simp [Board.apply, Board.Allows, Function.update_eq_self_iff, htask, Task.holds,
            Task.visits, Task.works]
      · next dryRun id rows htask =>
          obtain rfl := Option.some.inj h
          rw [htask, board_move]
          cases dryRun <;> simp [Board.apply, Board.Allows, Function.update_eq_self_iff, htask,
            Task.holds, Task.visits, Task.works]
      · next dryRun htask =>
          -- nothing is left of a bulk request: it leaves, and only its alert remains
          obtain rfl := Option.some.inj h
          rw [htask, board_leave]
          refine ⟨by cases dryRun <;> trivial, ?_⟩
          rw [board_move_eq (by simp [htask, Task.holds]) (by simp [htask, Task.visits])
            (by simp [htask, Task.works])]
          cases dryRun <;> rfl
      · cases h
  | finish t ok =>
      refine ⟨trivial, ?_⟩
      simp only [step] at h
      split at h
      · next id htask =>
          obtain rfl := Option.some.inj h
          simp [board_move, label, Board.apply, Function.update_eq_self_iff, htask, Task.holds,
            Task.visits, Task.works]
      · next dryRun id rows htask =>
          simp only [Option.ite_none_left_eq_some, Option.some.injEq] at h
          obtain ⟨-, rfl⟩ := h
          simp [board_move, label, Board.apply, Function.update_eq_self_iff, htask, Task.holds,
            Task.visits, Task.works]
      · cases h
  | record t =>
      simp only [step] at h
      simp only [label]
      split at h
      · next id ok htask =>
          refine ⟨⟨by simp [htask, Task.holds], by simp [htask, Task.works], ?_⟩, ?_⟩
          · rcases t with _ | _ | _ <;> cases ok <;> cases s.rows id <;> simp [Actor.outcome]
          · split at h
            · obtain rfl := Option.some.inj h
              exact board_record htask rfl rfl rfl
            · obtain rfl := Option.some.inj h
              rw [board_leave]
              exact board_record htask rfl rfl rfl
      · next dryRun id rows ok htask =>
          have hvisits : s.board.visits t = some id := by simp [htask, Task.visits]
          cases ok with
          | false =>
              obtain rfl := Option.some.inj h
              exact ⟨trivial, board_withdraw htask⟩
          | true =>
              obtain rfl := Option.some.inj h
              -- an update of a row that is gone changes nothing, so no work is recorded
              by_cases hid : s.rows id = none
              · rw [if_neg fun h => h.2 hid, updateStatus_eq hid]
                exact ⟨trivial, board_withdraw htask⟩
              · rw [if_pos ⟨rfl, hid⟩]
                exact ⟨hvisits, board_recordBulk htask hid⟩
      · cases h
  | alerted t =>
      simp only [step] at h
      split at h
      · next htask =>
          obtain rfl := Option.some.inj h
          refine ⟨trivial, ?_⟩
          rw [board_leave]
          exact board_move_eq (by simp [htask, Task.holds]) (by simp [htask, Task.visits])
            (by simp [htask, Task.works])
      · cases h
  | stop t =>
      have hstop : s'.board = (s.move t .finished).board := by
        simp only [step] at h
        split at h
        · cases h
        · cases h
        · rw [← Option.some.inj h]
        · rw [← Option.some.inj h, board_leave]
      refine ⟨trivial, ?_⟩
      rw [hstop, board_move]
      rfl
  | startup =>
      obtain rfl := Option.some.inj h
      exact ⟨trivial, board_resetDeletingToPending⟩
  | scrobble embyId lastPlayed =>
      obtain rfl := Option.some.inj h
      exact ⟨trivial, board_updateLastPlayedScrobble⟩

end Board

end QueueState

end Hygie
