/-
**The watch state of a row over time.**

What is known of the plays of a queued title is written by four parties: the scan writes what the
activity log reports, and what the episodes of a consolidated row add up to; a scan that finds an
item on the queue writes its current plays; and the look before a deletion writes what the log
reports then.  The rescue relies on it that the last play of a row never goes back.

Three of the parties let a write through when the text of its date is larger than the stored one,
which it may be although the instant is earlier.  The scan that finds an item on the queue compares
nothing, and its user data may know less than the log.  Only the copies of the rows in a batch are
compared as instants.

So it depends on what comes in for a row, from whichever party.  A row stores one of the dates that
came in for it, and no more views than some report gave it; what comes in later has to fit all of
them.

Main definitions:

* `NotEarlier`, `Advances` — a last play, and a row, that do not go back;
* `WatchReport`, `Fits` — what comes in for a row, and when it fits what came before;
* `WatchHistory` — the database, and what has come in so far;
* `Known` — the rows store nothing else;
* `OnlyAdvances` — the law of a run.

Main results:

* `advances_apply` — what one write preserves;
* `onlyAdvances_of_run` — **the watch state only advances** in every run in which what comes in
  fits.
-/

import Hygie.DueSelection
import Hygie.ServerIsolation

set_option relaxedAutoImplicit false
set_option autoImplicit false

namespace Hygie

/-! ### The law -/

section Law

variable (parse : String → Option Instant)

/-- A last play that is not lost, and is no earlier instant. -/
structure NotEarlier (old new : Option String) : Prop where
  kept : old.isSome = true → new.isSome = true
  le : ∀ t, old.bind parse = some t → ∃ t', new.bind parse = some t' ∧ t ≤ t'

/-- A row whose watch state has not gone back. -/
structure Advances (row row' : QueueRow) : Prop where
  lastPlayed : NotEarlier parse row.lastPlayed row'.lastPlayed
  viewCount : row.viewCount ≤ row'.viewCount

/-- Every row is still there, and its watch state has not gone back. -/
def RowsAdvance (q q' : QueueTable) : Prop :=
  ∀ row ∈ q.rows, ∃ row' ∈ q'.rows, row'.id = row.id ∧ Advances parse row row'

/-- What a report of the watch state is for: it is stored with a new row, it passes the comparison
of texts, it replaces what is stored, or it replaces the date alone. -/
inductive ReportKind
  | stored
  | guarded
  | rescan
  | scrobble
  deriving DecidableEq, Repr

/-- What comes in for the row of an item. -/
structure WatchReport where
  embyId : String
  date : Option String
  plays : Option ℤ
  kind : ReportKind
  deriving DecidableEq, Repr

/-- **A report fits** an earlier one about the same item.  A date that is the larger text is no
earlier instant; and what replaces the stored data without a comparison has a date if there was one,
no earlier instant, and no fewer plays. -/
def Fits (r r' : WatchReport) : Prop :=
  r.embyId = r'.embyId →
    match r'.kind with
    | .stored => True
    | .guarded =>
        ∀ d ∈ r.date, ∀ d' ∈ r'.date, d = "" ∨ d < d' → NotEarlier parse (some d) (some d')
    | .rescan => NotEarlier parse r.date r'.date ∧ ∀ n ∈ r.plays, ∀ n' ∈ r'.plays, n ≤ n'
    | .scrobble => NotEarlier parse r.date r'.date

end Law

/-- The data that a row is stored with. -/
def QueueEntry.report (entry : QueueEntry) : WatchReport :=
  ⟨entry.embyId, entry.lastPlayed, some entry.viewCount, .stored⟩

def WatchWrite.report (write : WatchWrite) : WatchReport :=
  ⟨write.embyId, some write.played, some write.viewCount, .guarded⟩

/-- An item has a pending row. -/
def QueueTable.isPending (q : QueueTable) (embyId : String) : Bool :=
  q.rows.any fun row => row.embyId = embyId && row.status = .pending

/-- The guarded writes about pending rows. -/
def QueueTable.guardedReports (q : QueueTable) (writes : List WatchWrite) : List WatchReport :=
  (writes.filter fun write => q.isPending write.embyId).map (·.report)

/-- The rows store what has come in for them: one of the dates, and no more views than a report
gave. -/
def Known (came : List WatchReport) (q : QueueTable) : Prop :=
  ∀ row ∈ q.rows,
    (∀ d ∈ row.lastPlayed, ∃ r ∈ came, r.embyId = row.embyId ∧ r.date = some d) ∧
      ∃ r ∈ came, r.embyId = row.embyId ∧ ∃ n ∈ r.plays, row.viewCount ≤ n

/-- **The law**: the watch state of the rows has not gone back, and does not go back in the copies
that a batch would go on with. -/
structure OnlyAdvances (rt : Runtime) (db db' : Database) : Prop where
  rows : RowsAdvance rt.parseIsoDt db.queue db'.queue
  copies : ∀ (w : WatchSources) (serverOf : String → String) (log : String → Option Activity),
    ∀ row ∈ db'.queue.rows, ∀ row', refreshedRow rt w serverOf row log = some row' →
      Advances rt.parseIsoDt row row'

/-- The writers of the watch state, with dates that can be read. -/
def WritesWatchState (rt : Runtime) : Writer → Prop
  | .activityLog plays => ∀ play ∈ plays, (rt.parseIsoDt play.2).isSome = true
  | .consolidatedWatch writes => ∀ write ∈ writes, (rt.parseIsoDt write.played).isSome = true
  | .alreadyQueued _ _ lastPlayed _ => ∀ date ∈ lastPlayed, (rt.parseIsoDt date).isSome = true
  | .refresh w => ∀ serverId, ∀ entry ∈ (w.server serverId).entries,
      (rt.parseIsoDt entry.date).isSome = true
  | _ => False

namespace Fleet

variable (f : Fleet)

/-- The writes of a look at the watch state before a deletion. -/
def refreshWrites (db : Database) (w : WatchSources) : List WatchWrite :=
  (refreshServer f.rt w f.serverId (db.queue.rows.filter fun row =>
    isDue f.rt row && libraryServer f.libraries row.libraryId = f.serverId)).2

/-- What comes in with a write: about the pending rows, about any row if it is a scrobble, and with
a new row. -/
def reports (db : Database) : Writer → List WatchReport
  | .activityLog plays =>
      db.queue.guardedReports ((plays.filter (·.2 ≠ "")).map fun play =>
        { played := play.2, viewCount := 1, embyId := play.1 })
  | .consolidatedWatch writes => db.queue.guardedReports writes
  | .alreadyQueued embyId _ lastPlayed playCount =>
      if db.queue.isPending embyId then [⟨embyId, lastPlayed, some playCount, .rescan⟩] else []
  | .insertEntry entry _ =>
      if entry.embyId ∈ db.queue.rows.map (·.embyId) then [] else [entry.report]
  | .insertPlexEntry entry =>
      if entry.embyId ∈ db.queue.rows.map (·.embyId) then [] else [entry.report]
  | .refresh w => db.queue.guardedReports (f.refreshWrites db w)
  | .scrobble ratingKey lastPlayed =>
      if ratingKey ∈ db.queue.rows.map (·.embyId) then
        [⟨ratingKey, some lastPlayed, none, .scrobble⟩]
      else []

end Fleet

/-- The database, and what has come in for its rows so far. -/
structure WatchHistory where
  db : Database
  came : List WatchReport

namespace WatchHistory

/-- What is stored at the beginning has come in. -/
def start (db : Database) : WatchHistory := ⟨db, db.queue.rows.map (·.report)⟩

def write (h : WatchHistory) (w : Fleet × Writer) : WatchHistory :=
  ⟨w.1.apply h.db w.2, h.came ++ w.1.reports h.db w.2⟩

/-- **The condition on a write**: what comes in fits what came before. -/
def Steady (h : WatchHistory) (w : Fleet × Writer) : Prop :=
  (h.came ++ w.1.reports h.db w.2).Pairwise (Fits w.1.rt.parseIsoDt)

end WatchHistory

/-- The runs of writes for servers of one installation. -/
abbrev WatchRun (rt : Runtime) (ok : WatchHistory → Fleet × Writer → Prop) (h : WatchHistory)
    (ws : List (Fleet × Writer)) (h' : WatchHistory) : Prop :=
  GuardedRun (fun h w => some (h.write w)) (fun h w => w.1.rt = rt ∧ ok h w) h ws h'

/-! ### What one write preserves -/

section Order

variable {parse : String → Option Instant} {a b c : Option String} {row row' row'' : QueueRow}
  {q q' q'' : QueueTable}

theorem NotEarlier.refl : NotEarlier parse a a where
  kept := id
  le t ht := ⟨t, ht, le_rfl⟩

theorem NotEarlier.trans (h : NotEarlier parse a b) (h' : NotEarlier parse b c) :
    NotEarlier parse a c where
  kept ha := h'.kept (h.kept ha)
  le t ht := by
    obtain ⟨u, hu, htu⟩ := h.le t ht
    obtain ⟨v, hv, huv⟩ := h'.le u hu
    exact ⟨v, hv, htu.trans huv⟩

theorem Advances.refl : Advances parse row row := ⟨.refl, le_rfl⟩

theorem Advances.trans (h : Advances parse row row') (h' : Advances parse row' row'') :
    Advances parse row row'' :=
  ⟨h.lastPlayed.trans h'.lastPlayed, h.viewCount.trans h'.viewCount⟩

theorem RowsAdvance.refl : RowsAdvance parse q q := fun row hrow => ⟨row, hrow, rfl, .refl⟩

theorem RowsAdvance.trans (h : RowsAdvance parse q q') (h' : RowsAdvance parse q' q'') :
    RowsAdvance parse q q'' := by
  intro row hrow
  obtain ⟨row', hrow', hid, hadvances⟩ := h row hrow
  obtain ⟨row'', hrow'', hid', hadvances'⟩ := h' row' hrow'
  exact ⟨row'', hrow'', hid'.trans hid, hadvances.trans hadvances'⟩

/-- An `UPDATE` under which the rows it names do not go back. -/
theorem rowsAdvance_update {p : QueueRow → Bool} {set : QueueRow → QueueRow} (hkeys : KeepsKeys set)
    (h : ∀ row ∈ q.rows, p row = true → Advances parse row (set row)) :
    RowsAdvance parse q (q.update p set hkeys) := by
  intro row hrow
  refine ⟨_, QueueTable.mem_update.2 ⟨row, hrow, rfl⟩, QueueTable.setWhere_id hkeys, ?_⟩
  rw [QueueTable.setWhere]
  split_ifs with hp
  · exact h row hrow hp
  · exact .refl

/-- An insertion leaves the rows that are there as they are. -/
theorem rowsAdvance_insertOrIgnore {entry : QueueEntry} :
    RowsAdvance parse q (q.insertOrIgnore entry) := fun row hrow =>
  ⟨row, QueueTable.mem_insertOrIgnore.2 (.inl hrow), rfl, .refl⟩

/-- One guarded write: the views never go down. -/
theorem rowsAdvance_writeWatchState {write : WatchWrite}
    (h : ∀ row ∈ q.rows, write.reaches row = true →
      NotEarlier parse row.lastPlayed (some write.played)) :
    RowsAdvance parse q (q.writeWatchState write) :=
  rowsAdvance_update _ fun row hrow hreaches => ⟨h row hrow hreaches, le_max_left ..⟩

theorem NotEarlier.none : NotEarlier parse none b := ⟨nofun, nofun⟩

/-! ### What the rows store -/

theorem Known.mono {came came' : List WatchReport} (h : Known came q)
    (hsub : ∀ r ∈ came, r ∈ came') : Known came' q := by
  intro row hrow
  obtain ⟨hdate, r, hr, hplays⟩ := h row hrow
  refine ⟨fun d hd => ?_, r, hsub r hr, hplays⟩
  obtain ⟨r', hr', hreport⟩ := hdate d hd
  exact ⟨r', hsub r' hr', hreport⟩

/-- Rows that are changed one by one store what has come in. -/
theorem Known.update {came : List WatchReport} {p : QueueRow → Bool} {set : QueueRow → QueueRow}
    (h : Known came q) (hkeys : KeepsKeys set)
    (hset : ∀ row ∈ q.rows, p row = true →
      (∀ d ∈ (set row).lastPlayed, ∃ r ∈ came, r.embyId = row.embyId ∧ r.date = some d) ∧
        ∃ r ∈ came, r.embyId = row.embyId ∧ ∃ n ∈ r.plays, (set row).viewCount ≤ n) :
    Known came (q.update p set hkeys) := by
  intro row hrow
  obtain ⟨old, hold, rfl⟩ := QueueTable.mem_update.1 hrow
  rw [QueueTable.setWhere_embyId hkeys, QueueTable.setWhere]
  split_ifs with hp
  · exact hset old hold hp
  · exact h old hold

theorem Known.insertOrIgnore {came : List WatchReport} {entry : QueueEntry} (h : Known came q) :
    Known (came ++ if entry.embyId ∈ q.rows.map (·.embyId) then [] else [entry.report])
      (q.insertOrIgnore entry) := by
  intro row hrow
  rcases QueueTable.mem_insertOrIgnore.1 hrow with hrow | ⟨hnew, rfl⟩
  · exact h.mono (fun r hr => List.mem_append_left _ hr) row hrow
  · rw [if_neg hnew]
    have hreport : entry.report ∈ came ++ [entry.report] := List.mem_concat_self
    exact ⟨fun d hd => ⟨entry.report, hreport, rfl, hd⟩, entry.report, hreport, rfl, _, rfl, le_rfl⟩

/-- **A guarded write** moves a row to a larger text, which is no earlier instant. -/
theorem notEarlier_of_reaches {came : List WatchReport} {write : WatchWrite} (hknown : Known came q)
    (hfits : ∀ r ∈ came, Fits parse r write.report) (hrow : row ∈ q.rows)
    (hreaches : write.reaches row = true) :
    NotEarlier parse row.lastPlayed (some write.played) := by
  simp only [WatchWrite.reaches, Bool.and_eq_true, decide_eq_true_eq] at hreaches
  obtain ⟨⟨hid, -⟩, hguard⟩ := hreaches
  cases hplayed : row.lastPlayed with
  | none => exact .none
  | some d =>
      obtain ⟨r, hr, hembyId, hdate⟩ := (hknown row hrow).1 d hplayed
      rw [hplayed] at hguard
      exact hfits r hr (hembyId.trans hid) d hdate write.played rfl (by simpa using hguard)

theorem known_writeWatchState {came : List WatchReport} {write : WatchWrite}
    (hknown : Known came q) : Known (came ++ [write.report]) (q.writeWatchState write) := by
  have hknown' : Known (came ++ [write.report]) q :=
    hknown.mono fun r hr => List.mem_append_left _ hr
  have hreport : write.report ∈ came ++ [write.report] := List.mem_concat_self
  apply hknown'.update
  intro row hrow hreaches
  have hid : write.embyId = row.embyId := by
    simp only [WatchWrite.reaches, Bool.and_eq_true, decide_eq_true_eq] at hreaches
    exact hreaches.1.1.symm
  refine ⟨fun d hd => ⟨write.report, hreport, hid, hd⟩, ?_⟩
  rcases le_total row.viewCount write.viewCount with hle | hle
  · exact ⟨write.report, hreport, hid, write.viewCount, rfl, (max_eq_right hle).le⟩
  · obtain ⟨r, hr, hembyId, n, hn, hviews⟩ := (hknown' row hrow).2
    exact ⟨r, hr, hembyId, n, hn, (max_eq_left hle).le.trans hviews⟩

theorem isPending_writeWatchState {write : WatchWrite} {embyId : String} :
    (q.writeWatchState write).isPending embyId = q.isPending embyId := by
  simp only [QueueTable.isPending, QueueTable.writeWatchState, QueueTable.update, List.any_map]
  refine congrArg q.rows.any (funext fun row => ?_)
  simp only [Function.comp_apply, QueueTable.setWhere]
  split_ifs <;> rfl

/-- A write about an item without a pending row changes nothing. -/
theorem writeWatchState_eq_self {write : WatchWrite} (h : q.isPending write.embyId = false) :
    q.writeWatchState write = q := by
  refine QueueTable.ext ?_ rfl
  refine (List.map_congr_left fun row hrow => ?_).trans q.rows.map_id
  have hreaches : write.reaches row = false := by
    have hother := List.any_eq_false.1 h row hrow
    rw [WatchWrite.reaches, Bool.eq_false_of_not_eq_true hother, Bool.false_and]
  exact if_neg (by rw [hreaches]; exact Bool.false_ne_true)

/-- **A batch of guarded writes.** -/
theorem advances_foldl {writes : List WatchWrite} {came : List WatchReport} (hknown : Known came q)
    (hfits : (came ++ q.guardedReports writes).Pairwise (Fits parse)) :
    RowsAdvance parse q (writes.foldl QueueTable.writeWatchState q) ∧
      Known (came ++ q.guardedReports writes) (writes.foldl QueueTable.writeWatchState q) := by
  induction writes generalizing q came with
  | nil => exact ⟨.refl, hknown.mono fun r hr => List.mem_append_left _ hr⟩
  | cons write writes ih =>
      cases hpending : q.isPending write.embyId with
      | false =>
          have hreports : q.guardedReports (write :: writes) = q.guardedReports writes := by
            simp only [QueueTable.guardedReports, List.filter_cons, hpending, Bool.false_eq_true,
              if_false]
          rw [hreports] at hfits ⊢
          rw [List.foldl_cons, writeWatchState_eq_self hpending]
          exact ih hknown hfits
      | true =>
          have hreports : came ++ q.guardedReports (write :: writes) =
              (came ++ [write.report]) ++ (q.writeWatchState write).guardedReports writes := by
            simp only [QueueTable.guardedReports, List.filter_cons, hpending, if_true,
              List.map_cons, isPending_writeWatchState, List.append_assoc,
              List.singleton_append]
          rw [hreports] at hfits ⊢
          have hwrite : ∀ r ∈ came, Fits parse r write.report := fun r hr =>
            (List.pairwise_append.1 (List.pairwise_append.1 hfits).1).2.2 r hr _
              (List.mem_singleton_self _)
          obtain ⟨hadvance, hknown'⟩ := ih (known_writeWatchState hknown) hfits
          exact ⟨(rowsAdvance_writeWatchState fun row hrow hreaches =>
            notEarlier_of_reaches hknown hwrite hrow hreaches).trans hadvance, hknown'⟩

end Order

section Copies

variable {rt : Runtime} {w : WatchSources} {serverOf : String → String}
  {log : String → Option Activity} {row row' : QueueRow} {played : String}

/-- **The copies of a batch** are compared as instants. -/
theorem advances_advanceLastPlayed :
    Advances rt.parseIsoDt row (advanceLastPlayed rt row played) := by
  rw [advanceLastPlayed]
  cases hfresh : rt.parseIsoDt played with
  | none => exact .refl
  | some fresh =>
      cases hcurrent : row.lastPlayed.bind rt.parseIsoDt with
      | none =>
          refine ⟨⟨fun _ => rfl, fun t ht => ?_⟩, le_rfl⟩
          rw [hcurrent] at ht
          cases ht
      | some current =>
          simp only
          split_ifs with hlater
          · refine ⟨⟨fun _ => rfl, fun t ht => ⟨fresh, hfresh, ?_⟩⟩, le_rfl⟩
            rw [hcurrent] at ht
            obtain rfl := Option.some.inj ht
            exact hlater.le
          · exact .refl

theorem advances_refreshedRow (h : refreshedRow rt w serverOf row log = some row') :
    Advances rt.parseIsoDt row row' := by
  rw [refreshedRow] at h
  split_ifs at h
  · obtain ⟨activity, _, rfl⟩ := Option.map_eq_some_iff.1 h
    rw [refreshRow]
    split
    · exact .refl
    · exact advances_advanceLastPlayed
  · obtain rfl := Option.some.inj h
    exact .refl

end Copies

namespace Fleet

variable {f : Fleet} {rt : Runtime} {db db' : Database} {w : Writer}
  {came : List WatchReport}

/-- A scan that finds an item on the queue. -/
theorem advances_updateDeleteAtIfPending {embyId : String} {grace : Option ℤ → ℤ}
    {lastPlayed : Option String} {playCount : ℤ} (hknown : Known came db.queue)
    (hfits : ∀ r ∈ came, db.queue.isPending embyId = true →
      Fits f.rt.parseIsoDt r ⟨embyId, lastPlayed, some playCount, .rescan⟩) :
    RowsAdvance f.rt.parseIsoDt db.queue
        (f.updateDeleteAtIfPending db embyId grace lastPlayed playCount).queue ∧
      Known (came ++ f.reports db (.alreadyQueued embyId grace lastPlayed playCount))
        (f.updateDeleteAtIfPending db embyId grace lastPlayed playCount).queue := by
  have hmono : Known (came ++ f.reports db (.alreadyQueued embyId grace lastPlayed playCount))
      db.queue := hknown.mono fun r hr => List.mem_append_left _ hr
  simp only [updateDeleteAtIfPending]
  split
  · exact ⟨.refl, hmono⟩
  · next row hfind =>
      obtain ⟨hembyId, hstatus⟩ : row.embyId = embyId ∧ row.status = .pending := by
        simpa using List.find?_some hfind
      have hmem := List.mem_of_find?_eq_some hfind
      have hpending : db.queue.isPending embyId = true :=
        List.any_eq_true.2 ⟨row, hmem, by simp [hembyId, hstatus]⟩
      have hreport : f.reports db (.alreadyQueued embyId grace lastPlayed playCount) =
          [⟨embyId, lastPlayed, some playCount, .rescan⟩] := if_pos hpending
      rw [hreport] at hmono ⊢
      have hnew : (⟨embyId, lastPlayed, some playCount, .rescan⟩ : WatchReport) ∈
          came ++ [⟨embyId, lastPlayed, some playCount, .rescan⟩] := List.mem_concat_self
      split
      · exact ⟨.refl, hmono⟩
      · have honly : ∀ other ∈ db.queue.rows, decide (other.id = row.id) = true → other = row :=
          fun other hother hid => db.queue.eq_of_id hother hmem (of_decide_eq_true hid)
        constructor
        · apply rowsAdvance_update
          · exact fun _ => ⟨rfl, rfl⟩
          · intro other hother hid
            obtain rfl := honly other hother hid
            obtain ⟨hdate, r, hr, hid', n, hn, hviews⟩ := hknown other hother
            constructor
            · cases hplayed : other.lastPlayed with
              | none => exact .none
              | some d =>
                  obtain ⟨r', hr', hid'', hd⟩ := hdate d hplayed
                  rw [← hd]
                  exact (hfits r' hr' hpending (hid''.trans hembyId)).1
            · exact hviews.trans ((hfits r hr hpending (hid'.trans hembyId)).2 n hn _ rfl)
        · apply hmono.update
          · exact fun _ => ⟨rfl, rfl⟩
          · intro other hother hid
            obtain rfl := honly other hother hid
            exact ⟨fun d hd => ⟨_, hnew, hembyId.symm, hd⟩, _, hnew, hembyId.symm, _, rfl, le_rfl⟩

/-- A scrobble. -/
theorem advances_scrobble {ratingKey lastPlayed : String} (hknown : Known came db.queue)
    (hfits : ∀ r ∈ came, ratingKey ∈ db.queue.rows.map (·.embyId) →
      Fits f.rt.parseIsoDt r ⟨ratingKey, some lastPlayed, none, .scrobble⟩) :
    RowsAdvance f.rt.parseIsoDt db.queue (f.apply db (.scrobble ratingKey lastPlayed)).queue ∧
      Known (came ++ f.reports db (.scrobble ratingKey lastPlayed))
        (f.apply db (.scrobble ratingKey lastPlayed)).queue := by
  have hmono : Known (came ++ f.reports db (.scrobble ratingKey lastPlayed)) db.queue :=
    hknown.mono fun r hr => List.mem_append_left _ hr
  constructor
  · apply rowsAdvance_update
    · exact fun _ => ⟨rfl, rfl⟩
    · intro row hrow hid
      have hembyId : row.embyId = ratingKey := of_decide_eq_true hid
      have hqueued : ratingKey ∈ db.queue.rows.map (·.embyId) :=
        List.mem_map.2 ⟨row, hrow, hembyId⟩
      refine ⟨?_, le_rfl⟩
      cases hplayed : row.lastPlayed with
      | none => exact .none
      | some d =>
          obtain ⟨r, hr, hid', hd⟩ := (hknown row hrow).1 d hplayed
          rw [← hd]
          exact hfits r hr hqueued (hid'.trans hembyId)
  · apply hmono.update
    · exact fun _ => ⟨rfl, rfl⟩
    · intro row hrow hid
      refine ⟨fun d hd => ?_, (hmono row hrow).2⟩
      have hembyId : row.embyId = ratingKey := of_decide_eq_true hid
      have hqueued : ratingKey ∈ db.queue.rows.map (·.embyId) :=
        List.mem_map.2 ⟨row, hrow, hembyId⟩
      refine ⟨⟨ratingKey, some lastPlayed, none, .scrobble⟩, ?_, hembyId.symm, hd⟩
      simp only [reports, if_pos hqueued, List.mem_append, List.mem_singleton, or_true]

/-- **What one write preserves.** -/
theorem advances_apply (hknown : Known came db.queue)
    (hfits : (came ++ f.reports db w).Pairwise (Fits f.rt.parseIsoDt)) :
    RowsAdvance f.rt.parseIsoDt db.queue (f.apply db w).queue ∧
      Known (came ++ f.reports db w) (f.apply db w).queue := by
  have hnew : ∀ r ∈ came, ∀ r' ∈ f.reports db w, Fits f.rt.parseIsoDt r r' := fun r hr =>
    (List.pairwise_append.1 hfits).2.2 r hr
  cases w with
  | activityLog plays => exact advances_foldl hknown hfits
  | consolidatedWatch writes => exact advances_foldl hknown hfits
  | alreadyQueued embyId grace lastPlayed playCount =>
      refine advances_updateDeleteAtIfPending hknown fun r hr hpending => hnew r hr _ ?_
      simp only [reports, if_pos hpending, List.mem_singleton]
  | insertEntry entry sent =>
      rw [queue_insertEntry]
      exact ⟨rowsAdvance_insertOrIgnore, hknown.insertOrIgnore⟩
  | insertPlexEntry entry => exact ⟨rowsAdvance_insertOrIgnore, hknown.insertOrIgnore⟩
  | refresh w => exact advances_foldl hknown hfits
  | scrobble ratingKey lastPlayed =>
      refine advances_scrobble hknown fun r hr hqueued => hnew r hr _ ?_
      simp only [reports, if_pos hqueued, List.mem_singleton]

end Fleet

namespace WatchHistory

open Fleet

variable {rt : Runtime} {db : Database} {h h' : WatchHistory} {ws ws' : List (Fleet × Writer)}

/-- The rows store what has come in, whatever is written. -/
theorem known_of_run (hrun : WatchRun rt Steady h ws h') (hknown : Known h.came h.db.queue) :
    Known h'.came h'.db.queue :=
  hrun.invariant (I := fun s => Known s.came s.db.queue) hknown fun s w t hs hok hstep => by
    obtain rfl := Option.some.inj hstep
    exact (advances_apply hs hok.2).2

theorem known_start : Known (start db).came db.queue := by
  intro row hrow
  have hreport : row.report ∈ (start db).came := List.mem_map.2 ⟨row, hrow, rfl⟩
  exact ⟨fun d hd => ⟨_, hreport, rfl, hd⟩, _, hreport, rfl, _, rfl, le_rfl⟩

/-- **The watch state only advances**, from any moment of a run to any later one, if what comes in
for the rows fits what came in for them before. -/
theorem onlyAdvances_of_run (hrun : WatchRun rt Steady (start db) ws h)
    (hrun' : WatchRun rt Steady h ws' h') : OnlyAdvances rt h.db h'.db where
  rows := by
    have hkept := hrun'.invariant
      (I := fun s => Known s.came s.db.queue ∧ RowsAdvance rt.parseIsoDt h.db.queue s.db.queue)
      ⟨known_of_run hrun known_start, .refl⟩ fun s w t hs hok hstep => by
        obtain ⟨rfl, hsteady⟩ := hok
        obtain rfl := Option.some.inj hstep
        obtain ⟨hadvance, hknown⟩ := advances_apply hs.1 hsteady
        exact ⟨hknown, hs.2.trans hadvance⟩
    exact hkept.2
  copies _ _ _ _ _ _ h := advances_refreshedRow h

/-! ### A film whose later stop has the smaller text -/

/-- The queue of the film, with its last play. -/
def playedDatabase (lastPlayed : Option String) : Database where
  queue := dueQueue.update (fun _ => true) (fun row => { row with lastPlayed := lastPlayed })
    fun _ => ⟨rfl, rfl⟩
  notifications := []

/-- One Emby server with the library of the film. -/
def filmFleet : Fleet where
  rt := isoRuntime
  libraries := [{ id := "films", serverId := some "0" }]
  libraryId := "films"
  isPlex := false
  itemIds := {"e1"}
  otherIds := ∅
  thresholds := []

theorem notEarlier_of_parse {parse : String → Option Instant} {d d' : String} {t t' : Instant}
    (h : parse d = some t) (h' : parse d' = some t') (hle : t ≤ t') :
    NotEarlier parse (some d) (some d') where
  kept := id
  le u hu := by
    obtain rfl := Option.some.inj (h.symm.trans hu)
    exact ⟨t', h', hle⟩

/-- The log reports a play in the night, of the film and of a title that is not on the queue. -/
def nightLog : Fleet × Writer :=
  (filmFleet, .activityLog [("e1", "2025-02-11T00:30:00Z"), ("e2", "2025-02-12T08:00:00Z")])

/-- A scan finds a play in the morning, which is written with another offset. -/
def morningScan : Fleet × Writer :=
  (filmFleet, .alreadyQueued "e1" (fun _ => 7) (some "2025-02-11T09:00:00+02:00") 2)

/-- The film was played in the evening, then in the night, and then in the morning. -/
theorem onlyAdvances_of_run_morning :
    OnlyAdvances isoRuntime
      ((start (playedDatabase (some "2025-02-10T23:30:00Z"))).write nightLog).db
      (((start (playedDatabase (some "2025-02-10T23:30:00Z"))).write nightLog).write
        morningScan).db := by
  have hevening : isoRuntime.parseIsoDt "2025-02-10T23:30:00Z" = some 1739230200000000 := by
    decide +kernel
  have hnight : isoRuntime.parseIsoDt "2025-02-11T00:30:00Z" = some 1739233800000000 := by
    decide +kernel
  have hmorning : isoRuntime.parseIsoDt "2025-02-11T09:00:00+02:00" = some 1739257200000000 := by
    decide +kernel
  let stored : WatchReport := ⟨"e1", some "2025-02-10T23:30:00Z", some 0, .stored⟩
  let logged : WatchReport := ⟨"e1", some "2025-02-11T00:30:00Z", some 1, .guarded⟩
  let found : WatchReport := ⟨"e1", some "2025-02-11T09:00:00+02:00", some 2, .rescan⟩
  have hlogged : Fits isoRuntime.parseIsoDt stored logged := by
    rintro - d hd d' hd' -
    obtain rfl := Option.some.inj hd
    obtain rfl := Option.some.inj hd'
    exact notEarlier_of_parse hevening hnight (by decide)
  have hfound : Fits isoRuntime.parseIsoDt stored found ∧
      Fits isoRuntime.parseIsoDt logged found :=
    ⟨fun _ => ⟨notEarlier_of_parse hevening hmorning (by decide), by decide⟩,
      fun _ => ⟨notEarlier_of_parse hnight hmorning (by decide), by decide⟩⟩
  have hfirst : List.Pairwise (Fits isoRuntime.parseIsoDt) [stored, logged] := by
    simpa using hlogged
  have hsecond : List.Pairwise (Fits isoRuntime.parseIsoDt) [stored, logged, found] := by
    simpa using ⟨⟨hlogged, hfound.1⟩, hfound.2⟩
  have hrun : WatchRun isoRuntime Steady (start (playedDatabase (some "2025-02-10T23:30:00Z")))
      [nightLog] _ := .snoc .nil ⟨rfl, hfirst⟩ rfl
  have hrun' : WatchRun isoRuntime Steady
      ((start (playedDatabase (some "2025-02-10T23:30:00Z"))).write nightLog) [morningScan] _ :=
    .snoc .nil ⟨rfl, hsecond⟩ rfl
  exact onlyAdvances_of_run hrun hrun'

/-- The log reports a play that is earlier than the stored one, with a larger text. -/
theorem not_onlyAdvances_mixedOffsets :
    ¬ ∀ (rt : Runtime) (db : Database) (ws : List (Fleet × Writer)) (h : WatchHistory),
      WatchRun rt (fun _ w => WritesWatchState rt w.2) (start db) ws h →
        OnlyAdvances rt db h.db := by
  intro hclaim
  have hdates : WritesWatchState isoRuntime
      (.activityLog [("e1", "2025-02-11T00:30:00+02:00")]) := by
    simp only [WritesWatchState]
    decide +kernel
  have hlaw := hclaim isoRuntime (playedDatabase (some "2025-02-10T23:30:00Z")) _ _
    (.snoc (a := (filmFleet, .activityLog [("e1", "2025-02-11T00:30:00+02:00")])) .nil
      ⟨rfl, hdates⟩ rfl)
  obtain ⟨row', hrow', _, hadvances⟩ := hlaw.rows _ (List.mem_singleton_self _)
  obtain rfl := List.mem_singleton.1 hrow'
  obtain ⟨t, ht, hle⟩ := hadvances.lastPlayed.le 1739230200000000 (by decide +kernel)
  have hwritten : t = 1739226600000000 := by
    have hparse : isoRuntime.parseIsoDt "2025-02-11T00:30:00+02:00" = some 1739226600000000 := by
      decide +kernel
    exact Option.some.inj (ht.symm.trans hparse)
  rw [hwritten] at hle
  exact absurd hle (by decide)

end WatchHistory

end Hygie
