/-
**What a scan inserts, announces and counts.**

The scanners put their entries on the queue with `INSERT OR IGNORE`: an entry whose `emby_id` is in
the table already leaves it as it is.  Neither the notification that a title was detected nor the
number that a scan returns looks at the outcome.  So an entry that is ignored is announced and
counted all the same, be it that the list names an item twice, that the item is queued for another
library, or that another scan has just inserted it.

Between two insertions the other scans may do anything to the database, and add to the set of queued
identifiers that is shared.

Main definitions:

* `Surroundings` — what happens around an insertion;
* `InsertState`, `InsertCall` — what a scan has done so far, call by call;
* `insertQueueEntry`, `Scanner.run` — `_insert_queue_entry`, and the loops around it;
* `InsertState.Agrees` — the law: every notification is for a new row, and every new row counts
  once.

Main results:

* `InsertState.tracked_run` — what a run records;
* `InsertState.agrees_iff` — **exactly when the three agree**;
* `InsertState.fresh_alone_iff` — when this is so for a scan that is alone.
-/

import Hygie.PlexMirror
import Hygie.RequesterFilter
import Hygie.ServerIsolation

set_option relaxedAutoImplicit false
set_option autoImplicit false

namespace Hygie

/-! ### The calls of a scan -/

/-- What happens around an insertion. -/
structure Surroundings where
  /-- What the others have done to the database. -/
  others : Database → Database := id
  /-- The identifiers that other scans have added to the set of queued ones. -/
  queuedElsewhere : List String := []
  /-- Discord takes the message. -/
  accepted : Bool := true

/-- A call that inserts an entry. -/
structure InsertCall where
  entry : QueueEntry
  before : Database
  after : Database
  /-- A message that the title was detected has been sent. -/
  notified : Bool

/-- The rows that a call has inserted. -/
def InsertCall.newRows (call : InsertCall) : List QueueRow :=
  call.after.queue.rows.filter (· ∉ call.before.queue.rows)

/-- What a scan has done so far. -/
structure InsertState where
  db : Database
  queuedIds : Option (List String)
  calls : List InsertCall := []
  added : ℕ := 0

section Scan

variable (f : Fleet) (dryRun : Bool)

/-- `_insert_queue_entry`; a dry run counts as sent. -/
def insertQueueEntry (around : Surroundings) (entry : QueueEntry) (s : InsertState) : InsertState :=
  let before := around.others s.db
  let after := f.apply before (.insertEntry entry (dryRun || around.accepted))
  let notified := !dryRun && around.accepted
  { s with
    db := after
    queuedIds := s.queuedIds.map (entry.embyId :: ·)
    calls := s.calls ++ [⟨entry, before, after, notified⟩] }

/-- The round of `_insert_eligible_entries` for one episode or film. -/
def episodeRound (around : Surroundings) (entry : QueueEntry) (s : InsertState) : InsertState :=
  { insertQueueEntry f dryRun around entry s with added := s.added + 1 }

/-- The round of `_consolidate_and_insert` for one complete group. -/
def groupRound (around : Surroundings) (entry : QueueEntry) (s : InsertState) : InsertState :=
  let s := { s with queuedIds := s.queuedIds.map (around.queuedElsewhere ++ ·) }
  if entry.embyId ∈ s.queuedIds.getD [] then s
  else { insertQueueEntry f dryRun around entry s with added := s.added + 1 }

/-- The round of `_scan_plex_library` for one entry. -/
def plexRound (around : Surroundings) (entry : QueueEntry) (s : InsertState) : InsertState :=
  let before := around.others s.db
  let after := f.apply before (.insertPlexEntry entry)
  { s with
    db := after
    calls := s.calls ++ [⟨entry, before, after, false⟩]
    added := s.added + 1 }

/-- The rounds of a scan. -/
def rounds (round : Surroundings → QueueEntry → InsertState → InsertState)
    (around : ℕ → Surroundings) (entries : List QueueEntry) (s : InsertState) : InsertState :=
  entries.zipIdx.foldl (fun s p => round (around p.2) p.1 s) s

/-- An item of a Plex library, with the moment and the rules when its turn comes. -/
structure PlexVisit where
  rt : Runtime
  rules : List ExpertRule
  item : PlexItem

/-- A scan, with what it has found out before it inserts. -/
inductive Scanner
  /-- `_insert_eligible_entries`. -/
  | emby (unit : DeletionUnit) (eligible : List QueueEntry) (cache : SonarrCache)
      (queuedIds : Option (List String))
  /-- `_scan_plex_library`. -/
  | plex (visits : List PlexVisit) (state : PlexScanState)

/-- What a scan does. -/
def Scanner.run (around : ℕ → Surroundings) (db : Database) : Scanner → InsertState
  | .emby unit eligible cache queuedIds =>
      match unit with
      | .episode => rounds (episodeRound f dryRun) around eligible { db, queuedIds }
      | unit =>
          rounds (groupRound f dryRun) around
            ((groups unit eligible).filterMap (completeEntry f.rt.parseIsoDt cache))
            { db, queuedIds }
  | .plex visits state =>
      rounds (plexRound f) around
        (visits.filterMap fun visit => plexItemToEntry visit.rt visit.rules visit.item state)
        { db, queuedIds := none }

end Scan

/-! ### What is asked -/

namespace InsertState

/-- **The law**: each notification is for a row that its call has inserted, and the count is the
number of rows inserted. -/
structure Agrees (s : InsertState) : Prop where
  notified : ∀ call ∈ s.calls, call.notified = true →
    ∃! row, row ∈ call.after.queue.rows ∧ row ∉ call.before.queue.rows
  counted : s.added = (s.calls.map fun call => call.newRows.length).sum

/-- No entry was queued already when its turn came. -/
def Fresh (s : InsertState) : Prop :=
  ∀ call ∈ s.calls, call.entry.embyId ∉ call.before.queue.rows.map (·.embyId)

/-! ### What a run records -/

/-- Each call counts once, and is an `INSERT OR IGNORE`. -/
structure Tracked (s : InsertState) : Prop where
  added : s.added = s.calls.length
  inserted : ∀ call ∈ s.calls, call.after.queue = call.before.queue.insertOrIgnore call.entry

variable {f : Fleet} {dryRun : Bool} {around : ℕ → Surroundings} {a : Surroundings}
  {entry : QueueEntry} {entries : List QueueEntry} {s : InsertState} {call : InsertCall}
  {round : Surroundings → QueueEntry → InsertState → InsertState}

/-- One more call. -/
theorem Tracked.append {s' : InsertState} (h : s.Tracked) (hcalls : s'.calls = s.calls ++ [call])
    (hadded : s'.added = s.added + 1)
    (hcall : call.after.queue = call.before.queue.insertOrIgnore call.entry) : s'.Tracked where
  added := by
    rw [hadded, hcalls, h.added, List.length_append, List.length_singleton]
  inserted := by
    intro other hother
    rw [hcalls] at hother
    rcases List.mem_append.1 hother with hold | hnew
    · exact h.inserted other hold
    · rw [List.mem_singleton.1 hnew]
      exact hcall

theorem Tracked.episodeRound (h : s.Tracked) : (episodeRound f dryRun a entry s).Tracked :=
  h.append rfl rfl Fleet.queue_insertEntry

theorem Tracked.groupRound (h : s.Tracked) : (groupRound f dryRun a entry s).Tracked := by
  simp only [Hygie.groupRound]
  split_ifs
  · exact ⟨h.added, h.inserted⟩
  · exact h.append rfl rfl Fleet.queue_insertEntry

theorem Tracked.plexRound (h : s.Tracked) : (plexRound f a entry s).Tracked :=
  h.append rfl rfl rfl

/-- What every round keeps, a run keeps. -/
theorem Tracked.rounds (h : s.Tracked)
    (hround : ∀ a entry s, s.Tracked → (round a entry s).Tracked) :
    (rounds round around entries s).Tracked := by
  rw [Hygie.rounds]
  generalize entries.zipIdx = steps
  induction steps generalizing s with
  | nil => exact h
  | cons step steps ih => exact ih (hround _ _ _ h)

/-- **What a run records.** -/
theorem tracked_run {db : Database} (scan : Scanner) : (scan.run f dryRun around db).Tracked := by
  have hstart : ∀ queuedIds, Tracked { db, queuedIds } := fun _ => ⟨rfl, List.forall_mem_nil _⟩
  cases scan with
  | emby unit eligible cache queuedIds =>
      cases unit with
      | episode => exact (hstart _).rounds fun _ _ _ => Tracked.episodeRound
      | season => exact (hstart _).rounds fun _ _ _ => Tracked.groupRound
      | series => exact (hstart _).rounds fun _ _ _ => Tracked.groupRound
  | plex visits state => exact (hstart _).rounds fun _ _ _ => Tracked.plexRound

/-! ### The rows that are inserted -/

/-- An entry whose `emby_id` is not there yet is the one new row. -/
theorem newRows_eq (h : call.after.queue = call.before.queue.insertOrIgnore call.entry) :
    call.newRows = if call.entry.embyId ∈ call.before.queue.rows.map (·.embyId) then []
      else [call.before.queue.newRow call.entry] := by
  rw [InsertCall.newRows, h, QueueTable.insertOrIgnore]
  have hold : call.before.queue.rows.filter (· ∉ call.before.queue.rows) = [] :=
    List.filter_eq_nil_iff.2 fun row hrow => by simpa using hrow
  split_ifs with hqueued
  · exact hold
  · have hnew : call.before.queue.newRow call.entry ∉ call.before.queue.rows := fun hmem =>
      hqueued (List.mem_map.2 ⟨_, hmem, rfl⟩)
    rw [QueueTable.insert, List.filter_append, hold, List.nil_append,
      List.filter_singleton, decide_eq_true hnew]
    rfl

/-- Numbers that are at most one add up to the length only if they are all one. -/
theorem sum_eq_length_iff {α : Type} {g : α → ℕ} {l : List α} (h : ∀ x ∈ l, g x ≤ 1) :
    l.length = (l.map g).sum ↔ ∀ x ∈ l, g x = 1 := by
  induction l with
  | nil => simp
  | cons x l ih =>
      obtain ⟨hx, hl⟩ := List.forall_mem_cons.1 h
      have hbound : (l.map g).sum ≤ l.length := by
        have hsum := List.sum_le_card_nsmul (l.map g) 1 fun y hy => by
          obtain ⟨z, hz, rfl⟩ := List.mem_map.1 hy
          exact hl z hz
        simpa using hsum
      rw [List.forall_mem_cons, ← ih hl, List.length_cons, List.map_cons, List.sum_cons]
      omega

/-- **Exactly when insertions, notifications and counts agree**: no entry was queued already when
its turn came. -/
theorem agrees_iff (f : Fleet) (dryRun : Bool) (around : ℕ → Surroundings) (db : Database)
    (scan : Scanner) :
    (scan.run f dryRun around db).Agrees ↔ (scan.run f dryRun around db).Fresh := by
  obtain ⟨hadded, hinserted⟩ := @tracked_run f dryRun around db scan
  have hnew : ∀ call ∈ (scan.run f dryRun around db).calls,
      call.newRows.length = 1 ↔ call.entry.embyId ∉ call.before.queue.rows.map (·.embyId) := by
    intro call hcall
    rw [newRows_eq (hinserted call hcall)]
    split_ifs with hqueued <;> simp [hqueued]
  have hatMost : ∀ call ∈ (scan.run f dryRun around db).calls, call.newRows.length ≤ 1 := by
    intro call hcall
    rw [newRows_eq (hinserted call hcall)]
    split_ifs <;> simp
  constructor
  · rintro ⟨-, hcounted⟩ call hcall
    rw [hadded] at hcounted
    exact (hnew call hcall).1 ((sum_eq_length_iff hatMost).1 hcounted call hcall)
  · intro hfresh
    refine ⟨fun call hcall _ => ?_, ?_⟩
    · obtain ⟨row, hrow⟩ := List.length_eq_one_iff.1 ((hnew call hcall).2 (hfresh call hcall))
      have hmem : ∀ other, other ∈ call.after.queue.rows ∧ other ∉ call.before.queue.rows ↔
          other = row := by
        intro other
        rw [← List.mem_singleton, ← hrow, InsertCall.newRows, List.mem_filter, decide_eq_true_iff]
      exact ⟨row, (hmem row).2 rfl, fun other hother => (hmem other).1 hother⟩
    · rw [hadded]
      exact (sum_eq_length_iff hatMost).2 fun call hcall => (hnew call hcall).2 (hfresh call hcall)

/-! ### A scan that is alone -/

/-- A round that inserts its entry into the database as the scan has left it. -/
def InsertsAlone (round : Surroundings → QueueEntry → InsertState → InsertState) : Prop :=
  ∀ a entry s, a.others = id →
    (∃ call, (round a entry s).calls = s.calls ++ [call] ∧
      call.entry = entry ∧ call.before = s.db) ∧
      (round a entry s).db.queue = s.db.queue.insertOrIgnore entry

theorem insertsAlone_episodeRound : InsertsAlone (Hygie.episodeRound f dryRun) := by
  intro a entry s halone
  have hqueue : (Hygie.episodeRound f dryRun a entry s).db.queue =
      (a.others s.db).queue.insertOrIgnore entry := Fleet.queue_insertEntry
  refine ⟨⟨_, rfl, rfl, congrFun halone s.db⟩, ?_⟩
  rw [hqueue, halone]
  rfl

theorem insertsAlone_plexRound : InsertsAlone (Hygie.plexRound f) := by
  intro a entry s halone
  have hqueue : (Hygie.plexRound f a entry s).db.queue =
      (a.others s.db).queue.insertOrIgnore entry := rfl
  refine ⟨⟨_, rfl, rfl, congrFun halone s.db⟩, ?_⟩
  rw [hqueue, halone]
  rfl

/-- The identifiers after an insertion, whether it is ignored or not. -/
theorem mem_embyIds_insertOrIgnore {q : QueueTable} {id : String} :
    id ∈ (q.insertOrIgnore entry).rows.map (·.embyId) ↔
      id ∈ q.rows.map (·.embyId) ∨ id = entry.embyId := by
  rw [QueueTable.insertOrIgnore]
  split_ifs with hqueued
  · refine ⟨.inl, ?_⟩
    rintro (hmem | rfl)
    · exact hmem
    · exact hqueued
  · rw [QueueTable.insert, List.map_append, List.mem_append]
    exact or_congr_right List.mem_singleton

/-- What is to be fresh when a scan is alone. -/
theorem fresh_steps_iff {steps : List (QueueEntry × ℕ)} (hround : InsertsAlone round)
    (halone : ∀ k, (around k).others = id) :
    (steps.foldl (fun s p => round (around p.2) p.1 s) s).Fresh ↔
      s.Fresh ∧ (steps.map (·.1.embyId)).Nodup ∧
        ∀ id ∈ steps.map (·.1.embyId), id ∉ s.db.queue.rows.map (·.embyId) := by
  induction steps generalizing s with
  | nil => simp
  | cons step steps ih =>
      obtain ⟨⟨call, hcalls, hentry, hbefore⟩, hqueue⟩ :=
        hround (around step.2) step.1 s (halone step.2)
      have hfirst : (round (around step.2) step.1 s).Fresh ↔
          s.Fresh ∧ step.1.embyId ∉ s.db.queue.rows.map (·.embyId) := by
        rw [Fresh, Fresh, hcalls, List.forall_mem_append, List.forall_mem_singleton,
          hentry, hbefore]
      have hlater : (∀ id ∈ steps.map (·.1.embyId),
          id ∉ (round (around step.2) step.1 s).db.queue.rows.map (·.embyId)) ↔
            step.1.embyId ∉ steps.map (·.1.embyId) ∧
              ∀ id ∈ steps.map (·.1.embyId), id ∉ s.db.queue.rows.map (·.embyId) := by
        rw [hqueue]
        simp only [mem_embyIds_insertOrIgnore, not_or]
        constructor
        · exact fun h => ⟨fun hmem => (h _ hmem).2 rfl, fun id hid => (h id hid).1⟩
        · rintro ⟨hfresh, hold⟩ id hid
          refine ⟨hold id hid, ?_⟩
          rintro rfl
          exact hfresh hid
      rw [List.foldl_cons, ih, hfirst, hlater, List.map_cons, List.nodup_cons, List.forall_mem_cons]
      tauto

theorem fresh_rounds_iff (hround : InsertsAlone round) (halone : ∀ k, (around k).others = id)
    (hstart : s.calls = []) :
    (Hygie.rounds round around entries s).Fresh ↔ (entries.map (·.embyId)).Nodup ∧
      ∀ id ∈ entries.map (·.embyId), id ∉ s.db.queue.rows.map (·.embyId) := by
  have hids : entries.zipIdx.map (fun p => p.1.embyId) = entries.map (·.embyId) := by
    have hfst := congrArg (List.map (·.embyId)) (List.zipIdx_map_fst 0 entries)
    rwa [List.map_map] at hfst
  have hnothing : s.Fresh := by
    rw [Fresh, hstart]
    exact List.forall_mem_nil _
  rw [Hygie.rounds, fresh_steps_iff hround halone, hids]
  exact and_iff_right hnothing

/-- **When a scan that is alone agrees**: no identifier is named twice, and none is queued. -/
theorem fresh_alone_iff {eligible : List QueueEntry} {cache : SonarrCache} {db : Database}
    {queuedIds : Option (List String)} (halone : ∀ k, (around k).others = id) :
    ((Scanner.emby .episode eligible cache queuedIds).run f dryRun around db).Fresh ↔
      (eligible.map (·.embyId)).Nodup ∧
        ∀ id ∈ eligible.map (·.embyId), id ∉ db.queue.rows.map (·.embyId) :=
  fresh_rounds_iff insertsAlone_episodeRound halone rfl

/-- The same for a scan of a Plex library. -/
theorem fresh_alone_plex_iff {visits : List PlexVisit} {state : PlexScanState} {db : Database}
    (halone : ∀ k, (around k).others = id) :
    ((Scanner.plex visits state).run f dryRun around db).Fresh ↔
      ((visits.filterMap fun visit =>
          plexItemToEntry visit.rt visit.rules visit.item state).map (·.embyId)).Nodup ∧
        ∀ id ∈ (visits.filterMap fun visit =>
          plexItemToEntry visit.rt visit.rules visit.item state).map (·.embyId),
          id ∉ db.queue.rows.map (·.embyId) :=
  fresh_rounds_iff insertsAlone_plexRound halone rfl

/-! ### A film that is listed twice -/

/-- A server with nothing on it, and no thresholds. -/
def emptyFleet : Fleet where
  rt := {}
  libraries := []
  libraryId := "films"
  isPlex := false
  itemIds := ∅
  otherIds := ∅
  thresholds := []

def listedFilm : QueueEntry where
  embyId := "42"
  title := "A"
  mediaType := "Movie"
  libraryId := "films"
  libraryName := "Films"
  filePath := "/films/A/A.mkv"
  detectedAt := "1970-01-01T00:00:00+00:00"
  deleteAt := "1970-01-08T00:00:00+00:00"

/-- A film that the list names twice is counted twice. -/
theorem not_agrees_twice :
    ¬ ((Scanner.emby .episode [listedFilm, listedFilm] [] (some [])).run emptyFleet false
      (fun _ => {}) .empty).Agrees := by
  rintro ⟨-, hcounted⟩
  have hadded : ((Scanner.emby .episode [listedFilm, listedFilm] [] (some [])).run emptyFleet false
      (fun _ => {}) .empty).added = 2 := rfl
  have hrows : (((Scanner.emby .episode [listedFilm, listedFilm] [] (some [])).run emptyFleet false
      (fun _ => {}) .empty).calls.map fun call => call.newRows.length).sum = 1 := by
    decide +kernel
  rw [hadded, hrows] at hcounted
  omega

end InsertState

end Hygie
