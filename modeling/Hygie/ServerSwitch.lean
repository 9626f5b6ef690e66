/-
**A media server that is switched off.**

The request that disables or removes a media server stores the new list, reads which pending rows
are of its libraries, and deletes them; then it returns.  A scan reads the list once, when it
starts, and inserts rows for hours after; when no server is enabled it scans server "0" all the
same, and the scan of one library goes on when its server is not in the list.  A batch of deletions
takes the rows that are due, reads their watch state, and claims them one by one.  None of the two
looks at the list again. Scans, batches and requests take their steps in any order.

A batch in dry-run mode claims nothing and runs no pipeline, so it is none here; the other columns
that a scan writes are left out.

Main definitions:

* `SwitchState`, `SwitchState.step` — the queue, the list of servers, and the parties;
* `SwitchState.closed` — the servers whose request has returned, and that have been off since;
* `SwitchState.Current` — the insertions of scans that the list of servers still allows;
* `SwitchState.Quiet` — the law: the servers that are off have no pending row, and no row of theirs
  is handed to a pipeline.

Main results:

* `SwitchState.invariant_step` — what one step preserves;
* `SwitchState.quiet_of_run` — **a server that is off deletes nothing** in any run of such
  insertions.
-/

import Hygie.DryRun
import Hygie.ServerList

set_option relaxedAutoImplicit false
set_option autoImplicit false

namespace Hygie

/-! ### The parties -/

/-- `s.get("enabled", True)`. -/
def ServerDict.isEnabled (server : ServerDict) : Bool :=
  server.entries .enabled ≠ some (.flag false)

/-- The list has the server, and it is enabled. -/
def isOn (servers : List ServerDict) (id : String) : Bool :=
  servers.any fun server => server.id.getD "0" = id && server.isEnabled

/-- The servers of a full scan: the enabled ones, or server "0". -/
def scannedServers (servers : List ServerDict) : List String :=
  let enabled := servers.filter ServerDict.isEnabled
  if enabled.isEmpty then ["0"] else enabled.map fun server => server.id.getD "0"

/-- The server of a library, as the queries join it. -/
def serverOf (libraries : List Library) (libraryId : String) : Option String :=
  (libraries.find? (·.id = libraryId)).bind Library.serverId

/-- A scan, with the list of servers that it has read. -/
inductive Scan
  /-- `_run_scan_body`. -/
  | all (servers : List ServerDict)
  /-- `_do_scan_one_library`. -/
  | library (servers : List ServerDict) (libraryId : String)

namespace Scan

/-- The list that the scan has read. -/
def servers : Scan → List ServerDict
  | .all servers => servers
  | .library servers _ => servers

/-- The scan comes to a library. -/
def covers (libraries : List Library) (libraryId : String) : Scan → Bool
  | .all servers =>
      match serverOf libraries libraryId with
      | some id => id ∈ scannedServers servers
      | none => false
  | .library servers id =>
      libraryId = id &&
        match servers.find? fun server =>
          Registry.isNamed (libraryServer libraries libraryId) server.id with
        | some server => server.isEnabled
        | none => true

end Scan

/-- How far a batch has come. -/
inductive BatchStage
  | due | refreshed | rescued
  deriving DecidableEq, Repr

/-- A batch: its rows, and those that it has claimed. -/
structure Batch where
  stage : BatchStage
  rows : List QueueRow
  claimed : List ℤ

/-- How far a request has come that disables or removes a server; the server has been off since the
list was stored, or not. -/
inductive PurgeStage
  | saved (id : String) (off : Bool)
  | selected (id : String) (off : Bool) (rows : List ℤ)
  | returned

/-- Another list is stored. -/
def PurgeStage.store (servers : List ServerDict) : PurgeStage → PurgeStage
  | .saved id off => .saved id (off && !isOn servers id)
  | .selected id off rows => .selected id (off && !isOn servers id) rows
  | .returned => .returned

/-- The queue, the stored list, the parties, and the servers that are off. -/
structure SwitchState where
  queue : QueueTable
  servers : List ServerDict
  scans : ℕ → Option Scan
  batches : ℕ → Option Batch
  requests : ℕ → Option PurgeStage
  /-- The request that disabled or removed it has returned, and it has been off since. -/
  closed : List String

inductive SwitchAction
  /-- A scan starts with the list that `get_media_servers` answers, be it stored or cached. -/
  | beginScan (n : ℕ) (scan : Scan)
  | insert (n : ℕ) (entry : QueueEntry)
  | watchState (write : WatchWrite)
  | select (b : ℕ) (now : Instant)
  | refresh (b : ℕ) (now : Instant) (w : WatchSources)
  | rescue (b : ℕ)
  | claim (b : ℕ) (row : QueueRow)
  | record (b : ℕ) (row : QueueRow) (ok : Bool)
  /-- Any other request that stores a list. -/
  | save (servers : List ServerDict)
  /-- `update_media_server` with `enabled` false, and the list that it has read. -/
  | disable (r : ℕ) (id : String) (fields : ServerFields) (read : List ServerDict)
  /-- `delete_media_server`. -/
  | remove (r : ℕ) (id : String) (read : List ServerDict)
  /-- `delete_pending_by_server`, the rows to delete. -/
  | selectPending (r : ℕ)
  | deleteSelected (r : ℕ)

namespace SwitchState

section Step

variable (rt : Runtime) (libraries : List Library)

def setBatch (s : SwitchState) (b : ℕ) (batch : Batch) : SwitchState :=
  { s with batches := Function.update s.batches b (some batch) }

def setRequest (s : SwitchState) (r : ℕ) (stage : PurgeStage) : SwitchState :=
  { s with requests := Function.update s.requests r (some stage) }

/-- A list is stored: what is on in it is not off any more. -/
def store (s : SwitchState) (servers : List ServerDict) : SwitchState :=
  { s with
    servers := servers
    requests := fun r => (s.requests r).map (PurgeStage.store servers)
    closed := s.closed.filter fun id => !isOn servers id }

/-- A request stores the list without its server. -/
def beginPurge (s : SwitchState) (r : ℕ) (id : String) (servers : List ServerDict) :
    Option SwitchState :=
  match s.requests r with
  | some _ => none
  | none => some ((s.store servers).setRequest r (.saved id (!isOn servers id)))

/-- The pending rows of the libraries of a server. -/
def pendingOf (q : QueueTable) (id : String) : List QueueRow :=
  q.rows.filter fun row => row.status = .pending && serverOf libraries row.libraryId = some id

/-- A step of a batch. -/
def stepBatch (s : SwitchState) (b : ℕ) (batch : Batch) : SwitchAction → Option SwitchState
  | .refresh _ now w =>
      if batch.stage = .due then
        let (rows, writes) := refreshWatchState { rt with now := now } w libraries batch.rows
        some ({ s with queue := writes.foldl QueueTable.writeWatchState s.queue }.setBatch b
          { batch with stage := .refreshed, rows := rows })
      else none
  | .rescue _ =>
      if batch.stage = .refreshed then
        let (rows, queue) := rescueWatched rt batch.rows s.queue
        some ({ s with queue := queue }.setBatch b { batch with stage := .rescued, rows := rows })
      else none
  | .claim _ row =>
      if batch.stage = .rescued ∧ row ∈ batch.rows then
        match s.queue.claimForDeletion row.id with
        | some queue =>
            some ({ s with queue := queue }.setBatch b
              { batch with claimed := row.id :: batch.claimed })
        | none => some s
      else none
  | .record _ row ok =>
      if row.id ∈ batch.claimed then
        some (({ s with
          queue := s.queue.updateStatus row.id (if ok then .deleted else .error) }).setBatch b
          { batch with claimed := batch.claimed.erase row.id })
      else none
  | _ => none

/-- The step function. -/
def step (s : SwitchState) (a : SwitchAction) : Option SwitchState :=
  match a with
  | .beginScan n scan => some { s with scans := Function.update s.scans n (some scan) }
  | .insert n entry =>
      match s.scans n with
      | some scan =>
          if scan.covers libraries entry.libraryId then
            some { s with queue := s.queue.insertOrIgnore entry }
          else none
      | none => none
  | .watchState write => some { s with queue := s.queue.writeWatchState write }
  | .select b now =>
      match s.batches b with
      | some _ => none
      | none =>
          some (s.setBatch b
            { stage := .due
              rows := s.queue.rows.filter (isDue { rt with now := now })
              claimed := [] })
  | .refresh b _ _ | .rescue b | .claim b _ | .record b _ _ =>
      match s.batches b with
      | some batch => s.stepBatch rt libraries b batch a
      | none => none
  | .save servers => some (s.store servers)
  | .disable r id fields read =>
      s.beginPurge r id (read.map fun server =>
        if Registry.isNamed id server.id then
          server.assign (Function.update fields .enabled (some (.flag false)))
        else server)
  | .remove r id read =>
      s.beginPurge r id (read.filter fun server => !Registry.isNamed id server.id)
  | .selectPending r =>
      match s.requests r with
      | some (.saved id off) =>
          some (s.setRequest r (.selected id off ((pendingOf libraries s.queue id).map (·.id))))
      | _ => none
  | .deleteSelected r =>
      match s.requests r with
      | some (.selected id off rows) =>
          some ({ s with
            queue := s.queue.delete fun row => row.id ∈ rows
            closed := if off then id :: s.closed else s.closed }.setRequest r .returned)
      | _ => none

/-- Nobody has started yet. -/
def start (queue : QueueTable) (servers : List ServerDict) : SwitchState where
  queue := queue
  servers := servers
  scans _ := none
  batches _ := none
  requests _ := none
  closed := []

/-- A scan inserts a row for a server that is on in the list that the scan has read, and still is.
-/
def Current (s : SwitchState) : SwitchAction → Prop
  | .insert n entry => ∀ scan id, s.scans n = some scan →
      serverOf libraries entry.libraryId = some id →
        isOn scan.servers id = true ∧ isOn s.servers id = isOn scan.servers id
  | _ => True

/-- The servers that are off have no pending row, and no row of theirs can be claimed by a batch. -/
structure Quiet (s : SwitchState) : Prop where
  none_pending : ∀ id ∈ s.closed, ∀ row ∈ s.queue.rows, serverOf libraries row.libraryId = some id →
    row.status ≠ .pending
  none_handed : ∀ id ∈ s.closed, ∀ b batch, s.batches b = some batch → ∀ row ∈ batch.rows,
    serverOf libraries row.libraryId = some id → s.queue.claimForDeletion row.id = none

end Step

/-! ### What the statements do to the rows -/

section Rows

variable {libraries : List Library} {on : String → Prop} {q q' q'' : QueueTable}

/-- The rows of a table come from another one and are pending there if they are, or they are new and
of the libraries of the given servers. -/
structure Follows (libraries : List Library) (on : String → Prop) (q q' : QueueTable) : Prop where
  nextId_le : q.nextId ≤ q'.nextId
  rows : ∀ row' ∈ q'.rows,
    (∃ row ∈ q.rows, row.id = row'.id ∧ row.libraryId = row'.libraryId ∧
      (row'.status = .pending → row.status = .pending)) ∨
    q.nextId ≤ row'.id ∧ ∀ id, serverOf libraries row'.libraryId = some id → on id

theorem follows_refl : Follows libraries on q q where
  nextId_le := le_rfl
  rows row hrow := .inl ⟨row, hrow, rfl, rfl, id⟩

theorem Follows.trans (h : Follows libraries on q q') (h' : Follows libraries on q' q'') :
    Follows libraries on q q'' where
  nextId_le := h.nextId_le.trans h'.nextId_le
  rows row'' hrow'' := by
    rcases h'.rows row'' hrow'' with ⟨row', hrow', hid', hlibrary', hpending'⟩ | ⟨hnew, hon⟩
    · rcases h.rows row' hrow' with ⟨row, hrow, hid, hlibrary, hpending⟩ | ⟨hnew, hon⟩
      · exact .inl ⟨row, hrow, hid.trans hid', hlibrary.trans hlibrary',
          fun h => hpending (hpending' h)⟩
      · rw [← hid', ← hlibrary']
        exact .inr ⟨hnew, hon⟩
    · exact .inr ⟨h.nextId_le.trans hnew, hon⟩

/-- An update that moves no row to another library and makes none pending. -/
theorem follows_update {p : QueueRow → Bool} {set : QueueRow → QueueRow} {hkeys : KeepsKeys set}
    (hset : ∀ row, (set row).libraryId = row.libraryId ∧
      ((set row).status = .pending → row.status = .pending)) :
    Follows libraries on q (q.update p set hkeys) where
  nextId_le := le_rfl
  rows row' hrow' := by
    obtain ⟨row, hrow, rfl⟩ := QueueTable.mem_update.1 hrow'
    refine .inl ⟨row, hrow, (QueueTable.setWhere_id hkeys).symm, ?_⟩
    rw [QueueTable.setWhere]
    split_ifs
    · exact ⟨(hset row).1.symm, (hset row).2⟩
    · exact ⟨rfl, id⟩

theorem follows_delete {p : QueueRow → Bool} : Follows libraries on q (q.delete p) where
  nextId_le := le_rfl
  rows row hrow := .inl ⟨row, (QueueTable.mem_delete.1 hrow).1, rfl, rfl, id⟩

theorem follows_writes {writes : List WatchWrite} :
    Follows libraries on q (writes.foldl QueueTable.writeWatchState q) := by
  induction writes generalizing q with
  | nil => exact follows_refl
  | cons write writes ih =>
      have hone : Follows libraries on q (q.writeWatchState write) :=
        follows_update fun _ => ⟨rfl, id⟩
      exact hone.trans ih

theorem follows_claim {id : ℤ} (h : q.claimForDeletion id = some q') :
    Follows libraries on q q' := by
  simp only [QueueTable.claimForDeletion] at h
  split_ifs at h
  obtain rfl := Option.some.inj h
  exact follows_update fun _ => ⟨rfl, nofun⟩

theorem follows_updateStatus {id : ℤ} {status : Status} (h : status ≠ .pending) :
    Follows libraries on q (q.updateStatus id status) :=
  follows_update fun _ => ⟨rfl, fun hpending => absurd hpending h⟩

theorem follows_insert {entry : QueueEntry}
    (hon : ∀ id, serverOf libraries entry.libraryId = some id → on id) :
    Follows libraries on q (q.insertOrIgnore entry) where
  nextId_le := by
    simp only [QueueTable.insertOrIgnore]
    split_ifs
    · exact le_rfl
    · exact (Int.lt_succ q.nextId).le
  rows row' hrow' := by
    rcases QueueTable.mem_insertOrIgnore.1 hrow' with hrow' | ⟨_, rfl⟩
    · exact .inl ⟨row', hrow', rfl, rfl, id⟩
    · exact .inr ⟨le_rfl, hon⟩

/-- A claim fails when no row of that identifier is pending. -/
theorem claimForDeletion_eq_none {id : ℤ}
    (h : ∀ row ∈ q.rows, row.id = id → row.status ≠ .pending) :
    q.claimForDeletion id = none := by
  rw [QueueTable.claimForDeletion, if_neg]
  intro hany
  obtain ⟨row, hrow, hclaimable⟩ := List.any_eq_true.1 hany
  simp only [Bool.and_eq_true, decide_eq_true_eq] at hclaimable
  exact h row hrow hclaimable.1 hclaimable.2

end Rows

/-! ### The invariant -/

variable {rt : Runtime} {libraries : List Library} {s t : SwitchState} {a : SwitchAction}

/-- A row that a batch has read: no other row will have its identifier. -/
structure Known (q : QueueTable) (row : QueueRow) : Prop where
  lt_nextId : row.id < q.nextId
  library : ∀ row' ∈ q.rows, row'.id = row.id → row'.libraryId = row.libraryId

/-- The servers whose request has stored the list are off as long as it is current; then the request
has all their pending rows, and then there are none. -/
structure Invariant (libraries : List Library) (s : SwitchState) : Prop where
  saved : ∀ r id, s.requests r = some (.saved id true) → isOn s.servers id = false
  selected : ∀ r id rows, s.requests r = some (.selected id true rows) → isOn s.servers id = false ∧
    ∀ row ∈ s.queue.rows, serverOf libraries row.libraryId = some id → row.status = .pending →
      row.id ∈ rows
  closed : ∀ id ∈ s.closed, isOn s.servers id = false ∧
    ∀ row ∈ s.queue.rows, serverOf libraries row.libraryId = some id → row.status ≠ .pending
  known : ∀ b batch, s.batches b = some batch → ∀ row ∈ batch.rows, Known s.queue row

/-- **The law follows from the invariant.** -/
theorem Invariant.quiet (h : Invariant libraries s) : s.Quiet libraries where
  none_pending id hid row hrow hserver := (h.closed id hid).2 row hrow hserver
  none_handed id hid b batch hbatch row hrow hserver := by
    refine claimForDeletion_eq_none fun row' hrow' heq => ?_
    -- the row that has the identifier now is of the same library
    have hlibrary := (h.known b batch hbatch row hrow).library row' hrow' heq
    exact (h.closed id hid).2 row' hrow' (by rw [hlibrary, hserver])

theorem Known.follows {q q' : QueueTable} {on : String → Prop} {row : QueueRow} (h : Known q row)
    (hq : Follows libraries on q q') : Known q' row where
  lt_nextId := h.lt_nextId.trans_le hq.nextId_le
  library row' hrow' hid := by
    rcases hq.rows row' hrow' with ⟨old, hold, hold', hlibrary, _⟩ | ⟨hnew, _⟩
    · rw [← hlibrary]
      exact h.library old hold (hold'.trans hid)
    · have hlt := h.lt_nextId
      omega

/-- A statement that adds rows of servers that are on keeps the invariant. -/
theorem Invariant.follows {q' : QueueTable} (h : Invariant libraries s)
    (hq : Follows libraries (fun id => isOn s.servers id = true) s.queue q') :
    Invariant libraries { s with queue := q' } := by
  -- a row of a server that is off is an old one
  have hold : ∀ id, isOn s.servers id = false → ∀ row' ∈ q'.rows,
      serverOf libraries row'.libraryId = some id → ∃ row ∈ s.queue.rows, row.id = row'.id ∧
        serverOf libraries row.libraryId = some id ∧
        (row'.status = .pending → row.status = .pending) := by
    intro id hoff row' hrow' hserver
    rcases hq.rows row' hrow' with ⟨row, hrow, hid, hlibrary, hpending⟩ | ⟨_, hon⟩
    · exact ⟨row, hrow, hid, by rw [hlibrary, hserver], hpending⟩
    · have hon' := hon id hserver
      rw [hoff] at hon'
      cases hon'
  refine ⟨h.saved, fun r id rows hr => ?_, fun id hid => ?_, fun b batch hb row hrow => ?_⟩
  · obtain ⟨hoff, hrows⟩ := h.selected r id rows hr
    refine ⟨hoff, fun row' hrow' hserver hpending' => ?_⟩
    obtain ⟨row, hrow, heq, hserver', hpending⟩ := hold id hoff row' hrow' hserver
    rw [← heq]
    exact hrows row hrow hserver' (hpending hpending')
  · obtain ⟨hoff, hrows⟩ := h.closed id hid
    refine ⟨hoff, fun row' hrow' hserver hpending' => ?_⟩
    obtain ⟨row, hrow, _, hserver', hpending⟩ := hold id hoff row' hrow' hserver
    exact hrows row hrow hserver' (hpending hpending')
  · exact (h.known b batch hb row hrow).follows hq

/-- A batch changes. -/
theorem Invariant.setBatch {b : ℕ} {batch : Batch} (h : Invariant libraries s)
    (hrows : ∀ row ∈ batch.rows, Known s.queue row) : Invariant libraries (s.setBatch b batch) where
  saved := h.saved
  selected := h.selected
  closed := h.closed
  known b' batch' hb' row hrow := by
    simp only [SwitchState.setBatch] at hb'
    by_cases hb : b' = b
    · rw [hb, Function.update_self] at hb'
      obtain rfl := Option.some.inj hb'
      exact hrows row hrow
    · rw [Function.update_of_ne hb] at hb'
      exact h.known b' batch' hb' row hrow

/-- A request changes. -/
theorem Invariant.setRequest {r : ℕ} {stage : PurgeStage} (h : Invariant libraries s)
    (hsaved : ∀ id, stage = .saved id true → isOn s.servers id = false)
    (hselected : ∀ id rows, stage = .selected id true rows → isOn s.servers id = false ∧
      ∀ row ∈ s.queue.rows, serverOf libraries row.libraryId = some id → row.status = .pending →
        row.id ∈ rows) :
    Invariant libraries (s.setRequest r stage) := by
  have hstage : ∀ r' stage', (s.setRequest r stage).requests r' = some stage' →
      stage' = stage ∨ s.requests r' = some stage' := by
    intro r' stage' hr'
    simp only [SwitchState.setRequest] at hr'
    by_cases hr : r' = r
    · rw [hr, Function.update_self] at hr'
      exact .inl (Option.some.inj hr').symm
    · rw [Function.update_of_ne hr] at hr'
      exact .inr hr'
  refine ⟨fun r' id hr' => ?_, fun r' id rows hr' => ?_, h.closed, h.known⟩
  · rcases hstage r' _ hr' with heq | hold
    · exact hsaved id heq.symm
    · exact h.saved r' id hold
  · rcases hstage r' _ hr' with heq | hold
    · exact hselected id rows heq.symm
    · exact h.selected r' id rows hold

/-- Another list is stored. -/
theorem Invariant.store (h : Invariant libraries s) (servers : List ServerDict) :
    Invariant libraries (s.store servers) where
  saved r id hr := by
    obtain ⟨stage, _, hstage⟩ := Option.map_eq_some_iff.1 hr
    cases stage with
    | saved id' off =>
        simp only [PurgeStage.store, PurgeStage.saved.injEq, Bool.and_eq_true,
          Bool.not_eq_true'] at hstage
        obtain ⟨rfl, _, hoff⟩ := hstage
        exact hoff
    | _ => cases hstage
  selected r id rows hr := by
    obtain ⟨stage, hold, hstage⟩ := Option.map_eq_some_iff.1 hr
    cases stage with
    | selected id' off rows' =>
        simp only [PurgeStage.store, PurgeStage.selected.injEq, Bool.and_eq_true,
          Bool.not_eq_true'] at hstage
        obtain ⟨rfl, ⟨rfl, hoff⟩, rfl⟩ := hstage
        exact ⟨hoff, (h.selected r _ _ hold).2⟩
    | _ => cases hstage
  closed id hid := by
    obtain ⟨hclosed, hoff⟩ := List.mem_filter.1 hid
    exact ⟨(Bool.not_eq_true' _).mp hoff, (h.closed id hclosed).2⟩
  known := h.known

theorem invariant_beginPurge {r : ℕ} {id : String} {servers : List ServerDict}
    (h : Invariant libraries s) (hstep : s.beginPurge r id servers = some t) :
    Invariant libraries t := by
  simp only [beginPurge] at hstep
  split at hstep
  · cases hstep
  · obtain rfl := Option.some.inj hstep
    refine (h.store servers).setRequest (fun id' heq => ?_) nofun
    obtain ⟨rfl, hoff⟩ := PurgeStage.saved.inj heq
    exact (Bool.not_eq_true' _).mp hoff

/-- A batch goes on with rows that it has read before. -/
theorem Invariant.advance {b : ℕ} {batch batch' : Batch} {q' : QueueTable}
    (h : Invariant libraries s)
    (hbatch : s.batches b = some batch)
    (hq : Follows libraries (fun id => isOn s.servers id = true) s.queue q')
    (hrows : ∀ row' ∈ batch'.rows,
      ∃ row ∈ batch.rows, row'.id = row.id ∧ row'.libraryId = row.libraryId) :
    Invariant libraries ({ s with queue := q' }.setBatch b batch') := by
  have hqueue := h.follows hq
  refine hqueue.setBatch fun row' hrow' => ?_
  obtain ⟨row, hrow, hid, hlibrary⟩ := hrows row' hrow'
  have hknown := hqueue.known b batch hbatch row hrow
  refine ⟨hid.trans_lt hknown.lt_nextId, fun other hother hother' => ?_⟩
  rw [hlibrary]
  exact hknown.library other hother (hother'.trans hid)

/-- A step of a batch: it reads rows of the table, writes what it has read of them, and claims. -/
theorem invariant_stepBatch {b : ℕ} {batch : Batch} (h : Invariant libraries s)
    (hbatch : s.batches b = some batch) (hstep : s.stepBatch rt libraries b batch a = some t) :
    Invariant libraries t := by
  cases a with
  | refresh b' now w =>
      simp only [stepBatch] at hstep
      split_ifs at hstep
      obtain rfl := Option.some.inj hstep
      refine h.advance hbatch follows_writes fun row' hrow' => ?_
      obtain ⟨row, hrow, hrefreshed⟩ := mem_refreshWatchState.1 hrow'
      -- only the play of the row has changed
      have hsame := refreshed_eq hrefreshed
      exact ⟨row, hrow, by rw [← hsame], by rw [← hsame]⟩
  | rescue b' =>
      simp only [stepBatch] at hstep
      split_ifs at hstep
      obtain rfl := Option.some.inj hstep
      exact h.advance hbatch follows_delete fun row hrow =>
        ⟨row, List.mem_of_mem_filter hrow, rfl, rfl⟩
  | claim b' row =>
      simp only [stepBatch] at hstep
      split_ifs at hstep
      split at hstep
      · next queue hclaim =>
          obtain rfl := Option.some.inj hstep
          exact h.advance hbatch (follows_claim hclaim) fun row hrow => ⟨row, hrow, rfl, rfl⟩
      · obtain rfl := Option.some.inj hstep
        exact h
  | record b' row ok =>
      have hstatus : (if ok then Status.deleted else Status.error) ≠ .pending := by
        split_ifs <;> decide
      simp only [stepBatch] at hstep
      generalize (if ok then Status.deleted else Status.error) = status at hstatus hstep
      split_ifs at hstep
      obtain rfl := Option.some.inj hstep
      exact h.advance hbatch (follows_updateStatus hstatus) fun row hrow => ⟨row, hrow, rfl, rfl⟩
  | _ => cases hstep

/-- **One step keeps the invariant**, if an insertion is for a server that is on. -/
theorem invariant_step (h : Invariant libraries s) (hok : s.Current libraries a)
    (hstep : s.step rt libraries a = some t) : Invariant libraries t := by
  cases a with
  | beginScan n scan =>
      obtain rfl := Option.some.inj hstep
      exact ⟨h.saved, h.selected, h.closed, h.known⟩
  | insert n entry =>
      simp only [step] at hstep
      split at hstep
      · next scan hscan =>
          split_ifs at hstep
          obtain rfl := Option.some.inj hstep
          refine h.follows (follows_insert fun id hserver => ?_)
          obtain ⟨hread, hcurrent⟩ := hok scan id hscan hserver
          exact hcurrent.trans hread
      · cases hstep
  | watchState write =>
      obtain rfl := Option.some.inj hstep
      exact h.follows (follows_update fun _ => ⟨rfl, id⟩)
  | select b now =>
      simp only [step] at hstep
      split at hstep
      · cases hstep
      · obtain rfl := Option.some.inj hstep
        -- what a batch selects is in the queue, under the identifier that it has there
        refine h.setBatch fun row hrow => ?_
        have hmem := List.mem_of_mem_filter hrow
        refine ⟨s.queue.lt_nextId row hmem, fun row' hrow' hid => ?_⟩
        rw [s.queue.eq_of_id hrow' hmem hid]
  | refresh b now w | rescue b | claim b row | record b row ok =>
      simp only [step] at hstep
      split at hstep
      · next batch hbatch => exact invariant_stepBatch h hbatch hstep
      · cases hstep
  | save servers =>
      obtain rfl := Option.some.inj hstep
      exact h.store servers
  | disable r id fields read => exact invariant_beginPurge h hstep
  | remove r id read => exact invariant_beginPurge h hstep
  | selectPending r =>
      simp only [step] at hstep
      split at hstep
      · next id off hr =>
          obtain rfl := Option.some.inj hstep
          refine h.setRequest nofun fun id' rows heq => ?_
          obtain ⟨rfl, rfl, rfl⟩ := PurgeStage.selected.inj heq
          refine ⟨h.saved r id hr, fun row hrow hserver hpending => ?_⟩
          have hselected : row ∈ pendingOf libraries s.queue id :=
            List.mem_filter.2 ⟨hrow, by simp [hpending, hserver]⟩
          exact List.mem_map_of_mem hselected
      · cases hstep
  | deleteSelected r =>
      simp only [step] at hstep
      split at hstep
      · next id off rows hr =>
          obtain rfl := Option.some.inj hstep
          have hqueue := h.follows (follows_delete (p := fun row => row.id ∈ rows))
          refine Invariant.setRequest ⟨hqueue.saved, hqueue.selected, ?_, hqueue.known⟩ nofun nofun
          intro id' hid'
          cases off with
          | false => exact hqueue.closed id' hid'
          | true =>
              rcases List.mem_cons.1 hid' with rfl | hid'
              · -- the pending rows of the server are those that are deleted
                obtain ⟨hoff, hrows⟩ := h.selected r _ rows hr
                refine ⟨hoff, fun row hrow hserver hpending => ?_⟩
                obtain ⟨hold, hkept⟩ := QueueTable.mem_delete.1 hrow
                exact of_decide_eq_false hkept (hrows row hold hserver hpending)
              · exact hqueue.closed id' hid'
      · cases hstep

/-- **A server that is off deletes nothing**, in every run in which each insertion is for a server
that the scan has found on, and that still is. -/
theorem quiet_of_run {queue : QueueTable} {servers : List ServerDict} {as : List SwitchAction}
    (hrun : GuardedRun (step rt libraries) (Current libraries) (start queue servers) as s) :
    s.Quiet libraries := by
  have hstart : Invariant libraries (start queue servers) :=
    ⟨nofun, nofun, nofun, nofun⟩
  exact (hrun.invariant hstart fun _ _ _ h hok hstep => invariant_step h hok hstep).quiet

/-! ### The only server, switched off before a scan -/

/-- The only server. -/
def embyServer : ServerDict where
  id := some "0"
  entries := fun
    | .name => some (.text "Emby")
    | _ => none

/-- It is switched off, and the request returns. -/
def disableActions : List SwitchAction :=
  [.disable 0 "0" (fun _ => none) [embyServer], .selectPending 0, .deleteSelected 0]

/-- What the request stores. -/
def disabledServer : ServerDict := embyServer.assign fun
  | .enabled => some (.flag false)
  | _ => none

/-- A full scan that starts afterwards finds no enabled server, and scans server "0". -/
def scanActions : List SwitchAction :=
  [.beginScan 0 (.all [disabledServer]), .insert 0 { seriesRow with libraryId := "shows" }]

theorem quiet_of_run_disable :
    ∃ s, GuardedRun (step sampleRuntime [{ id := "shows", serverId := some "0" }])
        (Current [{ id := "shows", serverId := some "0" }])
        (start seriesQueue [embyServer]) disableActions s ∧
      s.closed = ["0"] ∧ s.queue.rows = [] ∧ s.Quiet [{ id := "shows", serverId := some "0" }] := by
  have hrun : ∃ s, GuardedRun (step sampleRuntime [{ id := "shows", serverId := some "0" }])
      (Current [{ id := "shows", serverId := some "0" }])
      (start seriesQueue [embyServer]) disableActions s ∧ s.closed = ["0"] ∧ s.queue.rows = [] :=
    ⟨_, .snoc (.snoc (.snoc .nil trivial rfl) trivial rfl) trivial rfl, by decide +kernel,
      by decide +kernel⟩
  obtain ⟨s, hrun, hclosed, hrows⟩ := hrun
  exact ⟨s, hrun, hclosed, hrows, quiet_of_run hrun⟩

theorem isSome_runAll_scan :
    (runAll (step sampleRuntime [{ id := "shows", serverId := some "0" }])
      (start seriesQueue [embyServer]) (disableActions ++ scanActions)).isSome = true := by
  decide +kernel

/-- A scan that starts after the request has returned puts a row of the server on the queue. -/
theorem not_quiet_scan :
    ¬ ∀ rt libraries queue servers as s,
      GuardedRun (step rt libraries) (fun _ _ => True) (start queue servers) as s →
        s.Quiet libraries := by
  intro hclaim
  have hquiet := hclaim _ _ _ _ _ _ (GuardedRun.of_runAll (Option.some_get isSome_runAll_scan).symm)
  have hclosed : "0" ∈ (Option.get _ isSome_runAll_scan).closed := by decide +kernel
  have hpending : ∃ row ∈ (Option.get _ isSome_runAll_scan).queue.rows,
      serverOf [{ id := "shows", serverId := some "0" }] row.libraryId = some "0" ∧
        row.status = .pending := by decide +kernel
  obtain ⟨row, hrow, hserver, hstatus⟩ := hpending
  exact hquiet.none_pending "0" hclosed row hrow hserver hstatus

end SwitchState

end Hygie
