/-
**The notifications of thresholds.**

A scan and a batch of deletions both go through the thresholds, and they hold different locks.  For
each threshold a job reads the rows to notify, sends one message for them, and records them after
the answer; in between it holds nothing.  The insertion of a row, the marks of the thresholds that
it meets already, a change of its date and the reset of its marks are transactions of their own as
well.

The list of thresholds is fixed here, and a message counts as delivered when Discord has answered
so.

Main definitions:

* `NoticeState`, `Notifier.step` — the tables, the jobs, and what they are about to do;
* `NoticeState.delivered`, `NoticeState.met` — the rows and thresholds of the messages that were
  delivered, and those that a row met when it was inserted, while its date stays as it is;
* `Notifier.Orderly` — the steps in which no two jobs have a row in hand for one threshold, and no
  job reads a row that is not marked yet;
* `NoticeState.AtMostOnce` — the law.

Main results:

* `Notifier.pairInvariant_step` — what one step preserves, for one row and one threshold;
* `Notifier.atMostOnce_of_run` — **each threshold is delivered at most once** in any run of such
  steps.
-/

import Hygie.DryRun
import Hygie.GuardedRuns
import Hygie.Thresholds

set_option relaxedAutoImplicit false
set_option autoImplicit false

namespace Hygie

/-! ### The parties -/

inductive Dialect
  | sqlite | mariadb
  deriving DecidableEq, Repr

/-- The message that a job has in hand: its rows, and whether it has been sent. -/
structure Outgoing where
  days : ℕ
  rows : List ℤ
  sent : Bool
  nodup : rows.Nodup

/-- A `_send_pending_notifications`: the thresholds to come, and the message in hand. -/
structure Sender where
  dryRun : Bool
  left : List ℕ
  outgoing : Option Outgoing

/-- What does not change: the clock of texts, the thresholds of the setting, and the database. -/
structure Notifier where
  rt : Runtime
  thresholds : List ℕ
  dialect : Dialect

/-- The time, the tables, and the parties. -/
structure NoticeState where
  now : ℤ
  db : Database
  senders : ℕ → Option Sender
  /-- The entries that are inserted, and whose thresholds are not marked yet. -/
  inserting : ℕ → Option QueueEntry
  /-- The rows whose dates are changed, and whose marks are not reset yet. -/
  resetting : ℕ → Option ℤ
  /-- The rows and thresholds of the messages that were delivered since the date of the row is what
  it is. -/
  delivered : List (ℤ × ℕ)
  /-- The thresholds that a row met when it was inserted, while its date is what it was. -/
  met : List (ℤ × ℕ)

inductive NoticeAction
  | tick (now : ℤ)
  /-- `insert_queue_entry`. -/
  | insert (i : ℕ) (entry : QueueEntry)
  | preMark (i : ℕ)
  /-- The marks of an insertion fail, or it is cancelled before. -/
  | abandonInsert (i : ℕ)
  | begin (n : ℕ) (dryRun : Bool)
  /-- A job comes to its next threshold, or ends. -/
  | read (n : ℕ)
  /-- The answer of `send_notification`. -/
  | answer (n : ℕ) (sent : Bool)
  | record (n : ℕ)
  /-- An exception or a cancellation ends the job. -/
  | abort (n : ℕ)
  /-- A recalculation of `delete_at` writes the new date; the marks may be reset afterwards. -/
  | writeDate (u : ℕ) (id : ℤ) (date : ℤ) (resets : Bool)
  | resetMarks (u : ℕ)
  | abandonReset (u : ℕ)
  | setStatus (id : ℤ) (status : Status)
  /-- A mark that is none of a threshold, such as "detected". -/
  | mark (id : ℤ) (kind : String)
  | remove (ids : List ℤ)

namespace NoticeState

/-- The message that a job has in hand, and that goes to Discord. -/
def hand (s : NoticeState) (n : ℕ) : Option Outgoing :=
  (s.senders n).bind fun sender => if sender.dryRun then none else sender.outgoing

def setSender (s : NoticeState) (n : ℕ) (sender : Option Sender) : NoticeState :=
  { s with senders := Function.update s.senders n sender }

/-- A row of the queue has the identifier. -/
def present (s : NoticeState) (id : ℤ) : Bool := s.db.queue.rows.any (·.id = id)

/-- Since its date is what it is, a row is in one delivered message for each threshold at most, and
in none for a threshold that it met when it was inserted. -/
structure AtMostOnce (s : NoticeState) : Prop where
  once : s.delivered.Nodup
  none_met : ∀ p ∈ s.met, p ∉ s.delivered

/-- A job has the row in hand for the threshold, sent already or not. -/
def Holds (s : NoticeState) (p : ℤ × ℕ) (n : ℕ) (sent : Bool) : Prop :=
  ∃ out, s.hand n = some out ∧ out.days = p.2 ∧ p.1 ∈ out.rows ∧ out.sent = sent

/-- No job will notify the row for the threshold: it is marked, or the row is gone. -/
def Covered (s : NoticeState) (p : ℤ × ℕ) : Prop :=
  (p.1, thresholdKey p.2) ∈ s.db.notifications ∨ s.present p.1 = false

end NoticeState

namespace Notifier

variable (e : Notifier)

/-! ### The steps -/

/-- The thresholds that a date meets at a time. -/
def metAt (now : ℤ) (deleteAt : String) : List ℕ :=
  match e.rt.parseIsoDt deleteAt with
  | some date => e.thresholds.filter fun days : ℕ =>
      date ≤ now + (days : ℤ) * 86400000000 + 3600000000
  | none => []

/-- A row is inserted, if its item is not queued. -/
def insert (s : NoticeState) (i : ℕ) (entry : QueueEntry) : NoticeState :=
  { s with
    db := { s.db with queue := s.db.queue.insertOrIgnore entry }
    inserting := Function.update s.inserting i (some entry)
    met :=
      if entry.embyId ∈ s.db.queue.rows.map (·.embyId) then s.met
      else (e.metAt s.now entry.deleteAt).map (fun days => (s.db.queue.nextId, days)) ++ s.met }

/-- The next threshold of a job; it ends where the time cannot be computed. -/
def read (s : NoticeState) (n : ℕ) (sender : Sender) : NoticeState :=
  match sender.left with
  | [] => s.setSender n none
  | days :: rest =>
      match cutoff s.now days with
      | none => s.setSender n none
      | some moment =>
          let out : Outgoing :=
            { days := days
              rows := (s.db.toNotify e.rt moment days).map (·.id)
              sent := false
              nodup := Database.nodup_toNotify }
          s.setSender n (some
            { sender with left := rest, outgoing := if out.rows = [] then none else some out })

/-- The answer to a message. -/
def answer (s : NoticeState) (n : ℕ) (sender : Sender) (out : Outgoing) (sent : Bool) :
    NoticeState :=
  if sent then
    { s.setSender n (some { sender with outgoing := some { out with sent := true } }) with
      delivered :=
        if sender.dryRun then s.delivered
        else out.rows.map (fun id => (id, out.days)) ++ s.delivered }
  else s.setSender n (some { sender with outgoing := none })

/-- The marks of a message; a row that is gone lets the whole transaction fail on SQLite, where
`OR IGNORE` does not cover foreign keys. -/
def record (s : NoticeState) (n : ℕ) (sender : Sender) (out : Outgoing) : NoticeState :=
  if e.dialect = .sqlite ∧ ¬ out.rows.all s.present then s.setSender n none
  else
    { s.setSender n (some { sender with outgoing := none }) with
      db := s.db.record ((out.rows.filter s.present).map fun id => (id, thresholdKey out.days)) }

/-- The new date is another one, by more than an hour. -/
def isChange (row : QueueRow) (date : ℤ) : Bool :=
  match e.rt.parseIsoDt row.deleteAt with
  | none => true
  | some old => decide (3600000000 < |date - old|)

/-- A recalculation writes a date that is not the old one. -/
def redates (s : NoticeState) (id : ℤ) (date : ℤ) : Bool :=
  s.db.queue.rows.any fun row =>
    row.id = id && (e.isChange row date || row.deleteAt ≠ e.rt.isoformat date)

/-- A recalculation of a row. -/
def writeDate (s : NoticeState) (u : ℕ) (id : ℤ) (date : ℤ) (resets : Bool) (row : QueueRow) :
    NoticeState :=
  { s with
    db :=
      { s.db with
        queue := s.db.queue.update (·.id = id)
          (fun row => { row with deleteAt := e.rt.isoformat date }) fun _ => ⟨rfl, rfl⟩ }
    resetting := Function.update s.resetting u
      (if resets && e.isChange row date then some id else none)
    delivered := if e.redates s id date then s.delivered.filter (·.1 ≠ id) else s.delivered
    met := if e.redates s id date then s.met.filter (·.1 ≠ id) else s.met }

/-- The step function. -/
def step (s : NoticeState) : NoticeAction → Option NoticeState
  | .tick now => if s.now ≤ now then some { s with now := now } else none
  | .insert i entry =>
      match s.inserting i with
      | some _ => none
      | none => some (e.insert s i entry)
  | .preMark i =>
      match s.inserting i with
      | none => none
      | some entry =>
          some { s with
            db := preMarkApplicableThresholds { e.rt with now := s.now } e.thresholds s.db
              entry.embyId
              entry.deleteAt
            inserting := Function.update s.inserting i none }
  | .abandonInsert i => some { s with inserting := Function.update s.inserting i none }
  | .begin n dryRun =>
      match s.senders n with
      | some _ => none
      | none =>
          some (s.setSender n (some { dryRun := dryRun, left := e.thresholds, outgoing := none }))
  | .read n =>
      match s.senders n with
      | some ⟨dryRun, left, none⟩ => some (e.read s n ⟨dryRun, left, none⟩)
      | _ => none
  | .answer n sent =>
      match s.senders n with
      | some ⟨dryRun, left, some out⟩ =>
          if out.sent = false ∧ (dryRun = true → sent = true) then
            some (answer s n ⟨dryRun, left, some out⟩ out sent)
          else none
      | _ => none
  | .record n =>
      match s.senders n with
      | some ⟨dryRun, left, some out⟩ =>
          if out.sent then some (e.record s n ⟨dryRun, left, some out⟩ out) else none
      | _ => none
  | .abort n => some (s.setSender n none)
  | .writeDate u id date resets =>
      match s.resetting u, s.db.queue.rows.find? (·.id = id) with
      | none, some row => some (e.writeDate s u id date resets row)
      | _, _ => none
  | .resetMarks u =>
      match s.resetting u with
      | some id =>
          some { s with
            db :=
              { s.db with
                notifications := s.db.notifications.filter fun m =>
                  !(m.1 = id && m.2 ≠ "detected" && m.2 ≠ "now") }
            resetting := Function.update s.resetting u none }
      | none => none
  | .abandonReset u => some { s with resetting := Function.update s.resetting u none }
  | .setStatus id status =>
      some { s with db := { s.db with queue := s.db.queue.updateStatus id status } }
  | .mark id kind => some { s with db := s.db.record [(id, kind)] }
  | .remove ids =>
      some { s with
        db :=
          { queue := s.db.queue.delete fun row => row.id ∈ ids
            notifications := s.db.notifications.filter fun m => m.1 ∉ ids } }

/-- No job is running. -/
def start (now : ℤ) (db : Database) : NoticeState where
  now := now
  db := db
  senders _ := none
  inserting _ := none
  resetting _ := none
  delivered := []
  met := []

/-! ### The law -/

/-- No two jobs have a row in hand for one threshold, no job reads a row whose insertion is not
marked or whose marks are not reset yet, no date changes while a job has the row in hand, and what
was delivered or met is recorded. -/
def Orderly (s : NoticeState) : NoticeAction → Prop
  | .read n => ∀ days rest moment, s.senders n = some ⟨false, days :: rest, none⟩ →
      cutoff s.now days = some moment → ∀ row ∈ s.db.toNotify e.rt moment days,
        (∀ m out, s.hand m = some out → out.days = days → row.id ∉ out.rows) ∧
          (∀ i entry, s.inserting i = some entry → entry.embyId ≠ row.embyId) ∧
            ∀ u, s.resetting u ≠ some row.id
  | .preMark i => ∀ entry date, s.inserting i = some entry →
    e.rt.parseIsoDt entry.deleteAt = some date →
      (metThresholds s.now date e.thresholds).isSome
  | .abandonInsert i => ∀ entry, s.inserting i = some entry → e.metAt s.now entry.deleteAt = []
  | .record n => e.dialect = .sqlite → ∀ out, s.hand n = some out → ∀ id ∈ out.rows,
    s.present id = true
  | .abort n => ∀ out, s.hand n = some out → out.sent = false
  | .writeDate _ id date _ => e.redates s id date = true → ∀ n out, s.hand n = some out →
    id ∉ out.rows
  | _ => True

/-! ### One row and one threshold -/

/-- An insertion is about to mark the row for the threshold. -/
def Awaits (s : NoticeState) (p : ℤ × ℕ) : Prop :=
  ∃ i entry, s.inserting i = some entry ∧ p.2 ∈ e.metAt s.now entry.deleteAt ∧
    ∀ row ∈ s.db.queue.rows, row.id = p.1 → row.embyId = entry.embyId

/-- What holds of a row and a threshold. -/
structure PairInvariant (p : ℤ × ℕ) (s : NoticeState) : Prop where
  once : s.delivered.count p ≤ 1
  apart : p ∈ s.met → p ∉ s.delivered
  hand_met : ∀ n sent, s.Holds p n sent → p ∉ s.met
  hand_alone : ∀ n m sent sent', s.Holds p n sent → s.Holds p m sent' → n = m
  hand_new : ∀ n, s.Holds p n false → p ∉ s.delivered
  delivered_covered : p ∈ s.delivered → s.Covered p ∨ ∃ n, s.Holds p n true
  met_covered : p ∈ s.met → s.Covered p ∨ e.Awaits s p
  resetting : ∀ u, s.resetting u = some p.1 →
    p ∉ s.delivered ∧ p ∉ s.met ∧ ∀ n sent, ¬ s.Holds p n sent
  known : (p ∈ s.delivered ∨ p ∈ s.met ∨ (∃ n sent, s.Holds p n sent) ∨ ∃ u,
    s.resetting u = some p.1) →
    p.1 < s.db.queue.nextId

section Pair

variable {e : Notifier} {s t : NoticeState} {p : ℤ × ℕ} {n : ℕ}

/-- A step that hands out nothing new keeps the invariant if what is covered stays so. -/
theorem PairInvariant.shrink (h : e.PairInvariant p s)
    (hdelivered : t.delivered.count p ≤ s.delivered.count p) (hmet : p ∈ t.met → p ∈ s.met)
    (hhand : ∀ n sent, t.Holds p n sent → s.Holds p n sent)
    (hresetting : ∀ u, t.resetting u = some p.1 → s.resetting u = some p.1 ∨
      p.1 < t.db.queue.nextId ∧ p ∉ t.delivered ∧ p ∉ t.met ∧ ∀ n sent, ¬ t.Holds p n sent)
    (hnext : s.db.queue.nextId ≤ t.db.queue.nextId)
    (hd : p ∈ t.delivered → (s.Covered p ∨ ∃ n, s.Holds p n true) →
      t.Covered p ∨ ∃ n, t.Holds p n true)
    (hm : p ∈ t.met → (s.Covered p ∨ e.Awaits s p) → t.Covered p ∨ e.Awaits t p) :
    e.PairInvariant p t := by
  have hback : p ∈ t.delivered → p ∈ s.delivered := by
    rw [← List.count_pos_iff, ← List.count_pos_iff]
    exact fun hpos => hpos.trans_le hdelivered
  exact
    { once := hdelivered.trans h.once
      apart := fun hp hdel => h.apart (hmet hp) (hback hdel)
      hand_met := fun n sent hold hp => h.hand_met n sent (hhand n sent hold) (hmet hp)
      hand_alone := fun n m sent sent' hold hold' =>
        h.hand_alone n m sent sent' (hhand n sent hold) (hhand m sent' hold')
      hand_new := fun n hold hdel => h.hand_new n (hhand n _ hold) (hback hdel)
      delivered_covered := fun hdel => hd hdel (h.delivered_covered (hback hdel))
      met_covered := fun hp => hm hp (h.met_covered (hmet hp))
      resetting := by
        intro u hu
        rcases hresetting u hu with hs | ⟨-, hrest⟩
        · obtain ⟨hdel, hp, hold⟩ := h.resetting u hs
          exact ⟨fun hp => hdel (hback hp), fun h => hp (hmet h),
            fun n sent h => hold n sent (hhand n sent h)⟩
        · exact hrest
      known := by
        rintro (hdel | hp | ⟨n, sent, hold⟩ | ⟨u, hu⟩)
        · exact (h.known (.inl (hback hdel))).trans_le hnext
        · exact (h.known (.inr (.inl (hmet hp)))).trans_le hnext
        · exact (h.known (.inr (.inr (.inl ⟨n, sent, hhand n sent hold⟩)))).trans_le hnext
        · rcases hresetting u hu with hs | ⟨hlt, -⟩
          · exact (h.known (.inr (.inr (.inr ⟨u, hs⟩)))).trans_le hnext
          · exact hlt }

theorem present_iff {id : ℤ} : s.present id = true ↔ ∃ row ∈ s.db.queue.rows, row.id = id := by
  simp [NoticeState.present]

/-- An updated row has the keys of the old one. -/
theorem keys_of_mem_update {q : QueueTable} {r : QueueRow → Bool} {set : QueueRow → QueueRow}
    {row : QueueRow} (h : row ∈ q.rows.map (QueueTable.setWhere r set)) (hkeys : KeepsKeys set) :
    ∃ old ∈ q.rows, old.id = row.id ∧ old.embyId = row.embyId := by
  obtain ⟨old, hold, rfl⟩ := List.mem_map.1 h
  exact ⟨old, hold, (QueueTable.setWhere_id hkeys).symm, (QueueTable.setWhere_embyId hkeys).symm⟩

/-- What is covered stays covered while marks stay and no row comes back. -/
theorem Covered.mono (h : s.Covered p) (hmarks : (p.1, thresholdKey p.2) ∈ s.db.notifications →
      (p.1, thresholdKey p.2) ∈ t.db.notifications)
    (hrows : t.present p.1 = true → s.present p.1 = true) : t.Covered p := by
  rcases h with hmark | hgone
  · exact .inl (hmarks hmark)
  · refine .inr (Bool.eq_false_iff.2 fun hpresent => ?_)
    rw [hrows hpresent] at hgone
    cases hgone

theorem metAt_mono {now now' : ℤ} {deleteAt : String} {days : ℕ} (hle : now ≤ now')
    (h : days ∈ e.metAt now deleteAt) : days ∈ e.metAt now' deleteAt := by
  rw [metAt] at h ⊢
  cases hdate : e.rt.parseIsoDt deleteAt with
  | none => simp [hdate] at h
  | some date =>
      simp only [hdate, List.mem_filter, decide_eq_true_eq] at h ⊢
      exact ⟨h.1, h.2.trans (by gcongr)⟩

/-- An insertion is still to mark the row. -/
theorem Awaits.mono (h : e.Awaits s p) (hnow : s.now ≤ t.now)
    (hinserting : ∀ i entry, s.inserting i = some entry → p.2 ∈ e.metAt s.now entry.deleteAt →
      t.inserting i = some entry)
    (hrows : ∀ row ∈ t.db.queue.rows, row.id = p.1 → ∃ old ∈ s.db.queue.rows, old.id = p.1 ∧
      old.embyId = row.embyId) : e.Awaits t p := by
  obtain ⟨i, entry, hentry, hmet, hsame⟩ := h
  refine ⟨i, entry, hinserting i entry hentry hmet, metAt_mono hnow hmet, ?_⟩
  intro row hrow hid
  obtain ⟨old, hold, hid, hembyId⟩ := hrows row hrow hid
  rw [← hembyId, hsame old hold hid]

/-! ### The steps of the tables -/

/-- A step that leaves the jobs alone keeps what is covered. -/
theorem PairInvariant.frame (h : e.PairInvariant p s) (hsenders : t.senders = s.senders)
    (hdelivered : t.delivered = s.delivered) (hmet : t.met = s.met)
    (hresetting : ∀ u id, t.resetting u = some id → s.resetting u = some id)
    (hnext : s.db.queue.nextId ≤ t.db.queue.nextId)
    (hcovered : p ∈ s.delivered ∨ p ∈ s.met → s.Covered p → t.Covered p)
    (hawaits : p ∈ s.met → e.Awaits s p → t.Covered p ∨ e.Awaits t p) : e.PairInvariant p t := by
  have hholds : ∀ n sent, t.Holds p n sent ↔ s.Holds p n sent := by
    intro n sent
    simp only [NoticeState.Holds, NoticeState.hand, hsenders]
  refine h.shrink (hdelivered ▸ le_rfl) (hmet ▸ id) (fun n sent => (hholds n sent).1)
    (fun u hu => .inl (hresetting u _ hu)) hnext ?_ ?_
  · rintro hp (hc | ⟨n, hn⟩)
    · exact .inl (hcovered (.inl (hdelivered ▸ hp)) hc)
    · exact .inr ⟨n, (hholds n _).2 hn⟩
  · rintro hp (hc | ha)
    · exact .inl (hcovered (.inr (hmet ▸ hp)) hc)
    · exact hawaits (hmet ▸ hp) ha

theorem pairInvariant_preMark {i : ℕ} {entry : QueueEntry} (h : e.PairInvariant p s)
    (hok : e.Orderly s (.preMark i)) (hentry : s.inserting i = some entry) :
    e.PairInvariant p
      { s with
        db := preMarkApplicableThresholds { e.rt with now := s.now } e.thresholds s.db entry.embyId
          entry.deleteAt
        inserting := Function.update s.inserting i none } := by
  refine h.frame rfl rfl rfl (fun _ _ => id) (by rw [queue_preMark]) ?_ ?_
  · intro _ hc
    refine Covered.mono hc mem_preMark_of_mem ?_
    simp only [NoticeState.present, queue_preMark]
    exact id
  · rintro - ⟨j, other, hother, hmet, hsame⟩
    by_cases hij : j = i
    · -- the marks of this insertion
      subst hij
      obtain rfl := Option.some.inj (hother.symm.trans hentry)
      refine .inl ?_
      cases hpresent : s.present p.1 with
      | false =>
          refine .inr ?_
          simpa only [NoticeState.present, queue_preMark] using hpresent
      | true =>
          obtain ⟨row, hrow, hid⟩ := present_iff.1 hpresent
          rw [metAt] at hmet
          cases hdate : e.rt.parseIsoDt other.deleteAt with
          | none => simp [hdate] at hmet
          | some date =>
              simp only [hdate, List.mem_filter, decide_eq_true_eq] at hmet
              have hmark : (row.id, thresholdKey p.2) ∈ (preMarkApplicableThresholds
                  { e.rt with now := s.now } e.thresholds s.db row.embyId
                    other.deleteAt).notifications :=
                mem_preMark hrow hdate (hok other date hother hdate) hmet.1 hmet.2
              rw [hsame row hrow hid, hid] at hmark
              exact .inl hmark
    · refine .inr ⟨j, other, ?_, hmet, ?_⟩
      · simpa only [Function.update_of_ne hij] using hother
      · simpa only [queue_preMark] using hsame

theorem pairInvariant_resetMarks {u : ℕ} {id : ℤ} (h : e.PairInvariant p s)
    (hu : s.resetting u = some id) :
    e.PairInvariant p
      { s with
        db :=
          { s.db with
            notifications := s.db.notifications.filter fun m =>
              !(m.1 = id && m.2 ≠ "detected" && m.2 ≠ "now") }
        resetting := Function.update s.resetting u none } := by
  refine h.frame rfl rfl rfl ?_ le_rfl ?_ ?_
  · intro v id' hv
    by_cases huv : v = u
    · subst huv
      simp at hv
    · simpa only [Function.update_of_ne huv] using hv
  · intro hp hc
    refine Covered.mono hc (fun hmark => List.mem_filter.2 ⟨hmark, ?_⟩) fun h => h
    -- nothing of the row is delivered or met
    have hne : p.1 ≠ id := by
      rintro rfl
      obtain ⟨hdel, hmet, -⟩ := h.resetting u hu
      exact hp.elim hdel hmet
    simp [hne]
  · rintro - ha
    exact .inr (ha.mono le_rfl (fun _ _ h _ => h) fun row hrow hid => ⟨row, hrow, hid, rfl⟩)

theorem pairInvariant_remove {ids : List ℤ} (h : e.PairInvariant p s) :
    e.PairInvariant p
      { s with
        db :=
          { queue := s.db.queue.delete fun row => row.id ∈ ids
            notifications := s.db.notifications.filter fun m => m.1 ∉ ids } } := by
  refine h.frame rfl rfl rfl (fun _ _ => id) le_rfl ?_ ?_
  · intro _ hc
    by_cases hid : p.1 ∈ ids
    · refine .inr (Bool.eq_false_iff.2 fun hpresent => ?_)
      obtain ⟨row, hrow, heq⟩ := present_iff.1 hpresent
      have hkept := (QueueTable.mem_delete.1 hrow).2
      simp [heq, hid] at hkept
    · refine Covered.mono hc
        (fun hmark => List.mem_filter.2 ⟨hmark, by simpa using hid⟩) fun hpresent => ?_
      obtain ⟨row, hrow, heq⟩ := present_iff.1 hpresent
      exact present_iff.2 ⟨row, (QueueTable.mem_delete.1 hrow).1, heq⟩
  · rintro - ha
    exact .inr (ha.mono le_rfl (fun _ _ h _ => h) fun row hrow hid =>
      ⟨row, (QueueTable.mem_delete.1 hrow).1, hid, rfl⟩)

/-- An update of rows that leaves their keys alone. -/
theorem pairInvariant_update {q : QueueRow → Bool} {set : QueueRow → QueueRow}
    {hkeys : KeepsKeys set}
    (h : e.PairInvariant p s) :
    e.PairInvariant p { s with db := { s.db with queue := s.db.queue.update q set hkeys } } := by
  refine h.frame rfl rfl rfl (fun _ _ => id) le_rfl ?_ ?_
  · intro _ hc
    refine Covered.mono hc id fun hpresent => ?_
    obtain ⟨row, hrow, heq⟩ := present_iff.1 hpresent
    obtain ⟨old, hold, hid, -⟩ := keys_of_mem_update hrow hkeys
    exact present_iff.2 ⟨old, hold, hid.trans heq⟩
  · rintro - ha
    refine .inr (ha.mono le_rfl (fun _ _ h _ => h) fun row hrow hid => ?_)
    obtain ⟨old, hold, hid', hembyId⟩ := keys_of_mem_update hrow hkeys
    exact ⟨old, hold, hid'.trans hid, hembyId⟩

theorem pairInvariant_insert {i : ℕ} {entry : QueueEntry} (h : e.PairInvariant p s)
    (hfree : s.inserting i = none) : e.PairInvariant p (e.insert s i entry) := by
  have hnext : s.db.queue.nextId ≤ (s.db.queue.insertOrIgnore entry).nextId := by
    simp only [QueueTable.insertOrIgnore]
    split_ifs
    · exact le_rfl
    · exact (Int.lt_succ _).le
  by_cases hp : p.1 = s.db.queue.nextId
  · -- a new row: the thresholds that it meets are to be marked
    have hunknown : ∀ hknown : Prop, (hknown → p.1 < s.db.queue.nextId) → ¬ hknown :=
      fun _ hlt hknown => absurd (hlt hknown) (by omega)
    have hdel : p ∉ s.delivered := hunknown _ fun hp => h.known (.inl hp)
    have hmet : p ∉ s.met := hunknown _ fun hp => h.known (.inr (.inl hp))
    have hhold : ∀ n sent, ¬ s.Holds p n sent :=
      fun n sent => hunknown _ fun hp => h.known (.inr (.inr (.inl ⟨n, sent, hp⟩)))
    have hreset : ∀ u, s.resetting u ≠ some p.1 :=
      fun u => hunknown _ fun hp => h.known (.inr (.inr (.inr ⟨u, hp⟩)))
    have hborn : p ∈ (e.insert s i entry).met →
        entry.embyId ∉ s.db.queue.rows.map (·.embyId) ∧ p.2 ∈ e.metAt s.now entry.deleteAt := by
      simp only [insert]
      split_ifs with hold
      · exact fun hp => absurd hp hmet
      · intro hp
        rcases List.mem_append.1 hp with hp | hp
        · obtain ⟨days, hdays, rfl⟩ := List.mem_map.1 hp
          exact ⟨hold, hdays⟩
        · exact absurd hp hmet
    exact
      { once := h.once
        apart := fun _ => hdel
        hand_met := fun n sent hold => absurd hold (hhold n sent)
        hand_alone := fun n m sent sent' hold => absurd hold (hhold n sent)
        hand_new := fun n hold => absurd hold (hhold n _)
        delivered_covered := fun hp => absurd hp hdel
        met_covered := by
          intro hp
          refine .inr ⟨i, entry, Function.update_self .., (hborn hp).2, fun row hrow hid => ?_⟩
          rcases QueueTable.mem_insertOrIgnore.1 hrow with hrow | ⟨-, rfl⟩
          · exact absurd (s.db.queue.lt_nextId row hrow) (by omega)
          · rfl
        resetting := fun u hu => absurd hu (hreset u)
        known := by
          rintro (hp | hp | ⟨n, sent, hold⟩ | ⟨u, hu⟩)
          · exact absurd hp hdel
          · have hnew := (hborn hp).1
            simp only [insert, QueueTable.insertOrIgnore, dif_neg hnew, QueueTable.insert]
            omega
          · exact absurd hold (hhold n sent)
          · exact absurd hu (hreset u) }
  · -- another row: nothing about this one changes
    have hmet : p ∈ (e.insert s i entry).met ↔ p ∈ s.met := by
      simp only [insert]
      split_ifs
      · exact Iff.rfl
      · rw [List.mem_append, List.mem_map, or_iff_right]
        rintro ⟨days, -, rfl⟩
        exact hp rfl
    have hrows : ∀ row ∈ (s.db.queue.insertOrIgnore entry).rows, row.id = p.1 →
        row ∈ s.db.queue.rows := by
      intro row hrow hid
      rcases QueueTable.mem_insertOrIgnore.1 hrow with hold | ⟨-, rfl⟩
      · exact hold
      · exact absurd hid.symm hp
    refine h.shrink le_rfl hmet.1 (fun _ _ => id) (fun _ => .inl) hnext ?_ ?_
    · rintro - (hc | hold)
      · refine .inl (Covered.mono hc id fun hpresent => ?_)
        obtain ⟨row, hrow, hid⟩ := present_iff.1 hpresent
        exact present_iff.2 ⟨row, hrows row hrow hid, hid⟩
      · exact .inr hold
    · rintro - (hc | ha)
      · refine .inl (Covered.mono hc id fun hpresent => ?_)
        obtain ⟨row, hrow, hid⟩ := present_iff.1 hpresent
        exact present_iff.2 ⟨row, hrows row hrow hid, hid⟩
      · refine .inr (ha.mono le_rfl ?_ fun row hrow hid => ⟨row, hrows row hrow hid, hid, rfl⟩)
        intro j other hother _
        have hij : j ≠ i := by
          rintro rfl
          rw [hfree] at hother
          cases hother
        simpa only [insert, Function.update_of_ne hij] using hother

theorem pairInvariant_writeDate {u : ℕ} {id date : ℤ} {resets : Bool} {row : QueueRow}
    (h : e.PairInvariant p s) (hok : e.Orderly s (.writeDate u id date resets))
    (hrow : s.db.queue.rows.find? (·.id = id) = some row) :
    e.PairInvariant p (e.writeDate s u id date resets row) := by
  have hmem := List.mem_of_find?_eq_some hrow
  have hid : row.id = id := by simpa using List.find?_some hrow
  have hcovered : s.Covered p → (e.writeDate s u id date resets row).Covered p := by
    intro hc
    refine Covered.mono hc (fun h => h) fun hpresent => ?_
    obtain ⟨row', hrow', heq⟩ := present_iff.1 hpresent
    obtain ⟨old, hold, hid', -⟩ := keys_of_mem_update hrow' fun _ => ⟨rfl, rfl⟩
    exact present_iff.2 ⟨old, hold, hid'.trans heq⟩
  -- a change of the date forgets what was delivered for the row, and adds nothing
  have hsub : (e.writeDate s u id date resets row).delivered.Sublist s.delivered := by
    simp only [writeDate]
    split_ifs
    · exact List.filter_sublist
    · exact List.Sublist.refl _
  refine h.shrink (hsub.count_le p) ?_ (fun _ _ h => h) ?_ le_rfl ?_ ?_
  · simp only [writeDate]
    split_ifs
    · exact fun hp => (List.mem_filter.1 hp).1
    · exact fun hp => hp
  · intro v hv
    by_cases hvu : v = u
    · -- the marks are to be reset: the date is another one
      subst hvu
      have hchange : (resets && e.isChange row date) = true ∧ id = p.1 := by
        simp only [writeDate, Function.update_self] at hv
        split_ifs at hv with hreset
        exact ⟨hreset, Option.some.inj hv⟩
      obtain ⟨hreset, rfl⟩ := hchange
      have hredates : e.redates s p.1 date = true := by
        refine List.any_eq_true.2 ⟨row, hmem, ?_⟩
        have hchange := (Bool.and_eq_true_iff.1 hreset).2
        simp [hid, hchange]
      refine .inr ⟨hid ▸ s.db.queue.lt_nextId row hmem, ?_, ?_, ?_⟩
      · simp [writeDate, hredates]
      · simp [writeDate, hredates]
      · rintro n sent ⟨out, hout, -, hp, -⟩
        exact hok hredates n out hout hp
    · left
      simpa only [writeDate, Function.update_of_ne hvu] using hv
  · rintro - (hc | hold)
    · exact .inl (hcovered hc)
    · exact .inr hold
  · rintro - (hc | ha)
    · exact .inl (hcovered hc)
    · refine .inr (ha.mono le_rfl (fun _ _ h _ => h) fun row' hrow' heq => ?_)
      obtain ⟨old, hold, hid', hembyId⟩ := keys_of_mem_update hrow' fun _ => ⟨rfl, rfl⟩
      exact ⟨old, hold, hid'.trans heq, hembyId⟩

/-! ### The steps of the jobs -/

theorem hand_setSender {sender : Option Sender} {m : ℕ} :
    (s.setSender n sender).hand m =
      if m = n then sender.bind fun sender => if sender.dryRun then none else sender.outgoing
      else s.hand m := by
  simp only [NoticeState.hand, NoticeState.setSender, Function.update_apply]
  split_ifs <;> rfl

/-- A job that has nothing in hand any more, once what it had delivered is covered. -/
theorem PairInvariant.release (h : e.PairInvariant p s) {sender : Option Sender}
    (hempty : ∀ sender', sender = some sender' → sender'.outgoing = none)
    (hdone : s.Holds p n true → p ∈ s.delivered → s.Covered p) :
    e.PairInvariant p (s.setSender n sender) := by
  have hhand : ∀ m out, (s.setSender n sender).hand m = some out → m ≠ n ∧ s.hand m = some out := by
    intro m out hout
    rw [hand_setSender] at hout
    split_ifs at hout with hmn
    · obtain ⟨sender', hsender, hout⟩ := Option.bind_eq_some_iff.1 hout
      rw [hempty sender' hsender] at hout
      split_ifs at hout
    · exact ⟨hmn, hout⟩
  refine h.shrink le_rfl (fun hp => hp) ?_ (fun _ => .inl) le_rfl ?_ fun _ h => h
  · rintro m sent ⟨out, hout, hrest⟩
    exact ⟨out, (hhand m out hout).2, hrest⟩
  · rintro hp (hc | ⟨m, hold⟩)
    · exact .inl hc
    · by_cases hmn : m = n
      · subst hmn
        exact .inl (hdone hold hp)
      · obtain ⟨out, hout, hrest⟩ := hold
        refine .inr ⟨m, out, ?_, hrest⟩
        rw [hand_setSender, if_neg hmn, hout]

/-- A row that is read for a threshold is neither marked nor gone. -/
theorem not_covered_of_toNotify {moment : Instant} {days : ℕ} {row : QueueRow}
    (hrow : row ∈ s.db.toNotify e.rt moment days) : ¬ s.Covered (row.id, days) := by
  obtain ⟨hcandidate, hmark⟩ := List.mem_filter.1 hrow
  rintro (hmarked | hgone)
  · simp [hmarked] at hmark
  · have hpresent := present_iff.2 ⟨row, (List.mem_filter.1 hcandidate).1, rfl⟩
    rw [hgone] at hpresent
    cases hpresent

/-- A job reads the rows for its next threshold. -/
theorem pairInvariant_read {dryRun : Bool} {left : List ℕ} (h : e.PairInvariant p s)
    (hok : e.Orderly s (.read n)) (hn : s.senders n = some ⟨dryRun, left, none⟩) :
    e.PairInvariant p (e.read s n ⟨dryRun, left, none⟩) := by
  have hhand : s.hand n = none := by
    simp [NoticeState.hand, hn]
  have hnot : ∀ sent, ¬ s.Holds p n sent := by
    rintro sent ⟨out, hout, -⟩
    rw [hhand] at hout
    cases hout
  have hend : e.PairInvariant p (s.setSender n none) :=
    h.release nofun fun hold => absurd hold (hnot _)
  rw [read]
  split
  · exact hend
  · next days rest hleft =>
      obtain rfl : left = days :: rest := hleft
      split
      · exact hend
      · next moment hmoment =>
          set t := s.setSender n _ with ht
          have hother : ∀ m sent, m ≠ n → (t.Holds p m sent ↔ s.Holds p m sent) := by
            intro m sent hmn
            simp only [NoticeState.Holds, ht, hand_setSender, if_neg hmn]
          have hself : ∀ sent, t.Holds p n sent → dryRun = false ∧ sent = false ∧ days = p.2 ∧
              p.1 ∈ (s.db.toNotify e.rt moment days).map (·.id) := by
            rintro sent ⟨out, hout, hdays, hp, hsent⟩
            rw [ht, hand_setSender, if_pos rfl, Option.bind_some] at hout
            cases dryRun with
            | true => cases hout
            | false =>
                simp only [Bool.false_eq_true, if_false] at hout
                split_ifs at hout
                obtain rfl := Option.some.inj hout
                exact ⟨rfl, hsent.symm, hdays, hp⟩
          by_cases hp : dryRun = false ∧ days = p.2 ∧
              p.1 ∈ (s.db.toNotify e.rt moment days).map (·.id)
          · -- the row is read, and nobody has dealt with it
            obtain ⟨rfl, rfl, hp⟩ := hp
            obtain ⟨row, hrow, hid⟩ := List.mem_map.1 hp
            obtain ⟨hfree, hmarked, hreset⟩ := hok p.2 rest moment hn hmoment row hrow
            have huncovered : ¬ s.Covered p := by
              have hrest := not_covered_of_toNotify hrow
              rwa [hid] at hrest
            have hmem := (List.mem_filter.1 (List.mem_filter.1 hrow).1).1
            have hnobody : ∀ m sent, ¬ s.Holds p m sent := by
              rintro m sent ⟨out, hout, hdays, hheld, -⟩
              exact hfree m out hout hdays (hid ▸ hheld)
            have hdel : p ∉ s.delivered := by
              intro hdel
              rcases h.delivered_covered hdel with hc | ⟨m, hold⟩
              · exact huncovered hc
              · exact hnobody m _ hold
            have hmet : p ∉ s.met := by
              intro hmet
              rcases h.met_covered hmet with hc | ⟨i, entry, hentry, -, hsame⟩
              · exact huncovered hc
              · exact hmarked i entry hentry (hsame row hmem hid).symm
            have honly : ∀ m sent, t.Holds p m sent → m = n := by
              intro m sent hold
              by_contra hmn
              exact hnobody m sent ((hother m sent hmn).1 hold)
            exact
              { once := h.once
                apart := fun hp => absurd hp hmet
                hand_met := fun _ _ _ => hmet
                hand_alone := fun m k sent sent' hold hold' =>
                  (honly m sent hold).trans (honly k sent' hold').symm
                hand_new := fun _ _ => hdel
                delivered_covered := fun hp => absurd hp hdel
                met_covered := fun hp => absurd hp hmet
                resetting := fun u hu => absurd hu (hid ▸ hreset u)
                known := fun _ => hid ▸ s.db.queue.lt_nextId row hmem }
          · -- the row is not read, and the others hold what they held
            have hsub : ∀ m sent, t.Holds p m sent → m ≠ n ∧ s.Holds p m sent := by
              intro m sent hold
              have hmn : m ≠ n := by
                rintro rfl
                obtain ⟨hdry, -, hrest⟩ := hself sent hold
                exact hp ⟨hdry, hrest⟩
              exact ⟨hmn, (hother m sent hmn).1 hold⟩
            refine h.shrink le_rfl (fun hp => hp) (fun m sent hold => (hsub m sent hold).2)
              (fun _ => .inl) le_rfl ?_ fun _ h => h
            rintro - (hc | ⟨m, hold⟩)
            · exact .inl hc
            · have hmn : m ≠ n := by
                rintro rfl
                exact hnot _ hold
              exact .inr ⟨m, (hother m _ hmn).2 hold⟩

/-- A message was delivered, or would have been in a dry run. -/
theorem pairInvariant_answer {dryRun : Bool} {left : List ℕ} {out : Outgoing}
    (h : e.PairInvariant p s)
    (hn : s.senders n = some ⟨dryRun, left, some out⟩) (hnew : out.sent = false) :
    e.PairInvariant p (answer s n ⟨dryRun, left, some out⟩ out true) := by
  rw [answer, if_pos rfl]
  set t : NoticeState := { s.setSender n _ with delivered := _ } with ht
  have hhand : ∀ m, t.hand m =
      if m = n then (if dryRun then none else some { out with sent := true }) else s.hand m :=
    fun _ => hand_setSender
  have hother : ∀ m sent, m ≠ n → (t.Holds p m sent ↔ s.Holds p m sent) := by
    intro m sent hmn
    simp only [NoticeState.Holds, hhand, if_neg hmn]
  cases dryRun with
  | true =>
      -- a dry run delivers nothing and has nothing in hand
      have hnot : ∀ sent, ¬ t.Holds p n sent := by
        rintro sent ⟨out', hout', -⟩
        simp [hhand] at hout'
      have hnot' : ∀ sent, ¬ s.Holds p n sent := by
        rintro sent ⟨out', hout', -⟩
        simp [NoticeState.hand, hn] at hout'
      have hiff : ∀ m sent, t.Holds p m sent ↔ s.Holds p m sent := by
        intro m sent
        by_cases hmn : m = n
        · subst hmn
          exact iff_of_false (hnot sent) (hnot' sent)
        · exact hother m sent hmn
      exact h.shrink le_rfl (fun hp => hp) (fun m sent => (hiff m sent).1) (fun _ => .inl) le_rfl
        (fun _ hc => hc.imp_right fun hold => hold.imp fun m => (hiff m true).2) fun _ h => h
  | false =>
      have hmine : s.hand n = some out := by
        simp [NoticeState.hand, hn]
      by_cases hp : out.days = p.2 ∧ p.1 ∈ out.rows
      · have hold : s.Holds p n false := ⟨out, hmine, hp.1, hp.2, hnew⟩
        have hdel := h.hand_new n hold
        have hmet := h.hand_met n false hold
        have honly : ∀ m sent, t.Holds p m sent → m = n := by
          intro m sent hold'
          by_contra hmn
          exact hmn (h.hand_alone m n sent false ((hother m sent hmn).1 hold') hold)
        have hsent : t.Holds p n true :=
          ⟨{ out with sent := true }, by simp [hhand], hp.1, hp.2, rfl⟩
        have hcount : t.delivered.count p ≤ 1 := by
          have hnodup : (out.rows.map fun id => (id, out.days)).Nodup :=
            out.nodup.map fun _ _ heq => congrArg Prod.fst heq
          have hold0 := List.count_eq_zero.2 hdel
          have hnew1 := List.nodup_iff_count_le_one.1 hnodup p
          have heq : t.delivered = out.rows.map (fun id => (id, out.days)) ++ s.delivered := rfl
          rw [heq, List.count_append]
          omega
        exact
          { once := hcount
            apart := fun hp => absurd hp hmet
            hand_met := fun _ _ _ => hmet
            hand_alone := fun m k sent sent' hold hold' =>
              (honly m sent hold).trans (honly k sent' hold').symm
            hand_new := by
              intro m hold'
              obtain rfl := honly m false hold'
              obtain ⟨out', hout', -, -, hfalse⟩ := hold'
              rw [hhand, if_pos rfl] at hout'
              obtain rfl := Option.some.inj hout'
              cases hfalse
            delivered_covered := fun _ => .inr ⟨n, hsent⟩
            met_covered := fun hp => absurd hp hmet
            resetting := fun u hu => absurd hold ((h.resetting u hu).2.2 n false)
            known := fun _ => h.known (.inr (.inr (.inl ⟨n, false, hold⟩))) }
      · have hnot : ∀ sent, ¬ t.Holds p n sent := by
          rintro sent ⟨out', hout', hdays, hrow, -⟩
          rw [hhand, if_pos rfl] at hout'
          obtain rfl := Option.some.inj hout'
          exact hp ⟨hdays, hrow⟩
        have hsub : ∀ m sent, t.Holds p m sent → s.Holds p m sent := by
          intro m sent hold
          have hmn : m ≠ n := by
            rintro rfl
            exact hnot sent hold
          exact (hother m sent hmn).1 hold
        have hcount : t.delivered.count p = s.delivered.count p := by
          have heq : t.delivered = out.rows.map (fun id => (id, out.days)) ++ s.delivered := rfl
          have hzero : (out.rows.map fun id => (id, out.days)).count p = 0 := by
            refine List.count_eq_zero.2 fun hmem => ?_
            obtain ⟨id, hid, rfl⟩ := List.mem_map.1 hmem
            exact hp ⟨rfl, hid⟩
          rw [heq, List.count_append, hzero, zero_add]
        refine h.shrink hcount.le (fun hp => hp) hsub (fun _ => .inl) le_rfl ?_ fun _ h => h
        rintro - (hc | ⟨m, hold⟩)
        · exact .inl hc
        · have hmn : m ≠ n := by
            rintro rfl
            obtain ⟨out', hout', hdays, hrow, -⟩ := hold
            obtain rfl := Option.some.inj (hmine.symm.trans hout')
            exact hp ⟨hdays, hrow⟩
          exact .inr ⟨m, (hother m _ hmn).2 hold⟩

theorem pairInvariant_record {sender : Sender} {out : Outgoing} (h : e.PairInvariant p s)
    (hok : e.Orderly s (.record n)) (hn : s.senders n = some sender)
    (hout : sender.outgoing = some out) :
    e.PairInvariant p (e.record s n sender out) := by
  have hhand : ∀ out', s.hand n = some out' → out' = out := by
    intro out' hout'
    rw [NoticeState.hand, hn, Option.bind_some, hout] at hout'
    split_ifs at hout'
    exact (Option.some.inj hout').symm
  rw [record]
  split_ifs with hmissing
  · refine h.release nofun ?_
    rintro ⟨out', hout', -⟩
    obtain rfl := hhand out' hout'
    exact absurd (List.all_eq_true.2 (hok hmissing.1 out' hout')) hmissing.2
  · set marks := (out.rows.filter s.present).map fun id => (id, thresholdKey out.days) with hmarks
    have hrecorded : e.PairInvariant p { s with db := s.db.record marks } :=
      h.frame rfl rfl rfl (fun _ _ h => h) le_rfl
        (fun _ hc => Covered.mono hc (fun hmark => mem_record.2 (.inr hmark)) fun h => h)
        fun _ ha => .inr (ha.mono le_rfl (fun _ _ h _ => h) fun row hrow hid =>
          ⟨row, hrow, hid, rfl⟩)
    refine hrecorded.release (fun sender' hsender => by rw [← Option.some.inj hsender]) ?_
    rintro ⟨out', hout', hdays, hp, -⟩ -
    obtain rfl := hhand out' hout'
    cases hpresent : s.present p.1 with
    | false => exact .inr hpresent
    | true =>
        refine .inl (mem_record.2 (.inl
          (List.mem_map.2 ⟨p.1, List.mem_filter.2 ⟨hp, hpresent⟩, ?_⟩)))
        rw [hdays]

/-- **What one step preserves**, for one row and one threshold. -/
theorem pairInvariant_step {a : NoticeAction} (h : e.PairInvariant p s) (hok : e.Orderly s a)
    (hstep : e.step s a = some t) : e.PairInvariant p t := by
  cases a with
  | tick now =>
      simp only [step] at hstep
      split_ifs at hstep with hle
      obtain rfl := Option.some.inj hstep
      exact h.frame rfl rfl rfl (fun _ _ => id) le_rfl (fun _ hc => hc) fun _ ha =>
        .inr (ha.mono hle (fun _ _ h _ => h) fun row hrow hid => ⟨row, hrow, hid, rfl⟩)
  | insert i entry =>
      simp only [step] at hstep
      split at hstep
      · cases hstep
      · next hfree =>
          obtain rfl := Option.some.inj hstep
          exact pairInvariant_insert h hfree
  | preMark i =>
      simp only [step] at hstep
      split at hstep
      · cases hstep
      · next entry hentry =>
          obtain rfl := Option.some.inj hstep
          exact pairInvariant_preMark h hok hentry
  | abandonInsert i =>
      obtain rfl := Option.some.inj hstep
      refine h.frame rfl rfl rfl (fun _ _ => id) le_rfl (fun _ hc => hc) fun _ ha => ?_
      refine .inr (ha.mono le_rfl (fun j entry hentry hmet => ?_) fun row hrow hid =>
        ⟨row, hrow, hid, rfl⟩)
      by_cases hij : j = i
      · subst hij
        rw [hok entry hentry] at hmet
        cases hmet
      · simpa only [Function.update_of_ne hij] using hentry
  | begin n dryRun =>
      simp only [step] at hstep
      split at hstep
      · cases hstep
      · next hfree =>
          obtain rfl := Option.some.inj hstep
          refine h.release ?_ ?_
          · intro sender hsender
            rw [← Option.some.inj hsender]
          · rintro ⟨out, hout, -⟩
            simp [NoticeState.hand, hfree] at hout
  | read n =>
      simp only [step] at hstep
      split at hstep
      · next hn =>
          obtain rfl := Option.some.inj hstep
          exact pairInvariant_read h hok hn
      · cases hstep
  | answer n sent =>
      simp only [step] at hstep
      split at hstep
      · next dryRun left out hn =>
          split_ifs at hstep with hcan
          obtain rfl := Option.some.inj hstep
          cases sent with
          | true => exact pairInvariant_answer h hn hcan.1
          | false =>
              -- a message that failed was never sent
              refine h.release (fun sender hsender => by rw [← Option.some.inj hsender]) ?_
              rintro ⟨out', hout', -, -, hsent⟩
              rw [NoticeState.hand, hn, Option.bind_some] at hout'
              split_ifs at hout'
              obtain rfl := Option.some.inj hout'
              rw [hcan.1] at hsent
              cases hsent
      · cases hstep
  | record n =>
      simp only [step] at hstep
      split at hstep
      · next dryRun left out hn =>
          split_ifs at hstep with hcan
          obtain rfl := Option.some.inj hstep
          exact pairInvariant_record h hok hn rfl
      · cases hstep
  | abort n =>
      obtain rfl := Option.some.inj hstep
      -- the condition rules out a message that is delivered and not recorded
      refine h.release nofun ?_
      rintro ⟨out, hout, -, -, hsent⟩
      rw [hok out hout] at hsent
      cases hsent
  | writeDate u id date resets =>
      simp only [step] at hstep
      split at hstep
      · next row _ hrow =>
          obtain rfl := Option.some.inj hstep
          exact pairInvariant_writeDate h hok hrow
      · cases hstep
  | resetMarks u =>
      simp only [step] at hstep
      split at hstep
      · next id hu =>
          obtain rfl := Option.some.inj hstep
          exact pairInvariant_resetMarks h hu
      · cases hstep
  | abandonReset u =>
      obtain rfl := Option.some.inj hstep
      refine h.frame rfl rfl rfl ?_ le_rfl (fun _ hc => hc) fun _ ha =>
        .inr (ha.mono le_rfl (fun _ _ h _ => h) fun row hrow hid => ⟨row, hrow, hid, rfl⟩)
      intro v id hv
      by_cases huv : v = u
      · subst huv
        simp at hv
      · simpa only [Function.update_of_ne huv] using hv
  | setStatus id status =>
      obtain rfl := Option.some.inj hstep
      exact pairInvariant_update h
  | mark id kind =>
      obtain rfl := Option.some.inj hstep
      refine h.frame rfl rfl rfl (fun _ _ => fun h => h) le_rfl
        (fun _ hc => Covered.mono hc (fun hmark => mem_record.2 (.inr hmark)) fun h => h)
          fun _ ha =>
        .inr (ha.mono le_rfl (fun _ _ h _ => h) fun row hrow hid => ⟨row, hrow, hid, rfl⟩)
  | remove ids =>
      obtain rfl := Option.some.inj hstep
      exact pairInvariant_remove h

theorem pairInvariant_start {now : ℤ} {db : Database} : e.PairInvariant p (start now db) where
  once := by simp [start]
  apart := nofun
  hand_met _ _ hold := nomatch hold
  hand_alone _ _ _ _ hold := nomatch hold
  hand_new _ hold := nomatch hold
  delivered_covered := nofun
  met_covered := nofun
  resetting := nofun
  known := by rintro (hp | hp | ⟨n, sent, out, hout, -⟩ | ⟨u, hu⟩) <;> contradiction

/-- **Each threshold is delivered at most once** for a row, and never if the row met it when it was
inserted, in any run of orderly steps. -/
theorem atMostOnce_of_run {now : ℤ} {db : Database} {as : List NoticeAction}
    (hrun : GuardedRun e.step e.Orderly (start now db) as s) : s.AtMostOnce := by
  have hpair : ∀ p, e.PairInvariant p s := fun p =>
    hrun.invariant pairInvariant_start fun _ _ _ h hok hstep => pairInvariant_step h hok hstep
  exact ⟨List.nodup_iff_count_le_one.2 fun p => (hpair p).once, fun p => (hpair p).apart⟩

/-! ### A film that is deleted in a week -/

/-- A film that is deleted on the tenth of February. -/
def filmEntry : QueueEntry where
  embyId := "42"
  title := "Heat"
  mediaType := "Movie"
  libraryId := "movies"
  libraryName := "Movies"
  filePath := "/movies/Heat (1995)/Heat.mkv"
  detectedAt := "2025-01-01T00:00:00+00:00"
  deleteAt := "2025-02-10T20:00:00+00:00"

/-- The default thresholds, the date of the film, and a week after the fourth of February. -/
def weekNotifier : Notifier where
  rt :=
    { parseIsoDt := fun s => if s = "2025-02-10T20:00:00+00:00" then some 1739217600000000 else none
      isoformat := fun t =>
        if t = 1739235600000000 then "2025-02-11T01:00:00+00:00" else "2025-02-05T01:00:00+00:00" }
  thresholds := [7, 1]
  dialect := .sqlite

/-- The film is inserted in January, and a job starts on the fourth of February. -/
def insertActions : List NoticeAction :=
  [.insert 0 filmEntry, .preMark 0, .tick 1738627200000000, .begin 0 false]

/-- Nobody is in the middle of anything. -/
theorem orderly_read (hhand : ∀ m, s.hand m = none) (hinserting : ∀ i, s.inserting i = none)
    (hresetting : ∀ u, s.resetting u = none) : e.Orderly s (.read n) := by
  intro days rest moment _ _ row _
  refine ⟨fun m out hout => ?_, fun i entry hentry => ?_, fun u hu => ?_⟩
  · rw [hhand] at hout
    cases hout
  · rw [hinserting] at hentry
    cases hentry
  · rw [hresetting] at hu
    cases hu

theorem atMostOnce_of_run_film :
    ∃ s, GuardedRun weekNotifier.step weekNotifier.Orderly (start 1735689600000000 .empty)
      (insertActions ++ [.read 0, .answer 0 true, .record 0]) s ∧ s.AtMostOnce := by
  have hidle : ∀ i,
      Function.update (Function.update (fun _ => none) 0 (some filmEntry)) 0 none i = none := by
    intro i
    by_cases hi : i = 0
    · subst hi
      rfl
    · rw [Function.update_of_ne hi, Function.update_of_ne hi]
  have hrun : ∃ s, GuardedRun weekNotifier.step weekNotifier.Orderly (start 1735689600000000 .empty)
      (insertActions ++ [.read 0, .answer 0 true, .record 0]) s := by
    refine ⟨_, .cons trivial rfl (.cons ?_ rfl (.cons trivial rfl (.cons trivial rfl
      (.cons (orderly_read ?_ hidle fun _ => rfl) rfl (.cons trivial rfl (.cons ?_ rfl .nil))))))⟩
    · -- the times of both thresholds can be computed
      intro entry date hentry hdate
      obtain rfl := Option.some.inj hentry
      obtain rfl := Option.some.inj hdate
      decide
    · intro m
      rw [hand_setSender]
      split_ifs <;> rfl
    · -- the film is still there
      intro _ out hout
      obtain rfl := Option.some.inj hout
      decide
  obtain ⟨s, hrun⟩ := hrun
  exact ⟨s, hrun, atMostOnce_of_run hrun⟩

theorem isSome_runAll :
    (runAll weekNotifier.step (start 1735689600000000 .empty)
      (insertActions ++ [.begin 1 false, .read 0, .read 1, .answer 0 true, .answer 1 true])).isSome
        = true := by decide +kernel

/-- Two jobs that read the film before one of them has recorded it deliver it twice. -/
theorem not_atMostOnce_overlap :
    ¬ ∀ (e : Notifier) now db as s, GuardedRun e.step (fun _ _ => True) (start now db) as s →
      s.AtMostOnce := by
  intro hclaim
  have honce := (hclaim _ _ _ _ _ (GuardedRun.of_runAll (Option.some_get isSome_runAll).symm)).once
  have htwice : (Option.get _ isSome_runAll).delivered = [(1, 7), (1, 7)] := by decide +kernel
  rw [htwice] at honce
  exact absurd honce (by decide)

end Pair

end Notifier

end Hygie
