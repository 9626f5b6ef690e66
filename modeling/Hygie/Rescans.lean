/-
**Scanning a library again.**

A scan computes the deletion date of every pending row anew whose item meets the conditions of the
library: the detection of the row, and the grace period of its requester in the library.  It does
not know how the row was queued.  An expert rule has a grace period of its own, so a row that a rule
has queued is moved as soon as the conditions hold and only the filter on the requester keeps the
item back; and for a row that the conditions have queued, the grace period is added to a moment
before the lookups in Radarr and Sonarr, while the detection is a moment after them.

The two scans see the same library, requests, rules and plays.  They differ in what they read off
the clock, and in which of their secondary statements fail.

Main definitions:

* `addDays` — a moment and some days, where there is such a `datetime`;
* `Fleet.recompute` — the new date of a row;
* `RescanSetting`, `ScanTime`, `RescanSetting.after` — what stays the same, what may differ, and
  what a scan leaves;
* `RescanSetting.Idempotent` — the law: the second scan leaves the dates and notifications;
* `RescanSetting.Agrees` — a date is the one that a scan would compute.

Main results:

* `RescanSetting.mem_after` — **what becomes of the rows of the queue**;
* `RescanSetting.agrees_evaluated_iff`, `RescanSetting.agrees_matched_iff` — which entries agree;
* `RescanSetting.idempotent_iff` — **exactly when the second scan changes nothing**.
-/

import Hygie.GroupWatch

set_option relaxedAutoImplicit false
set_option autoImplicit false

namespace Hygie

/-! ### Dates -/

/-- `datetime.min`, the beginning of the year 1. -/
def minInstant : ℤ := -62135596800000000

/-- `t + timedelta(days=days)`; nothing where a step of it raises `OverflowError`. -/
def addDays (t : Instant) (days : ℤ) : Option Instant :=
  if 999999999 < |days| then none
  else
    let moved : ℤ := t + days * 86400000000
    if minInstant ≤ moved ∧ moved ≤ maxInstant then some moved else none

/-- A date that is written is read back. -/
def Runtime.ReadsBack (rt : Runtime) : Prop :=
  ∀ t : ℤ, minInstant ≤ t → t ≤ maxInstant → rt.parseIsoDt (rt.isoformat t) = some t

theorem addDays_eq_some {t t' : Instant} {days : ℤ} (h : addDays t days = some t') :
    t' = t + days * 86400000000 ∧ minInstant ≤ t' ∧ t' ≤ maxInstant := by
  simp only [addDays] at h
  split_ifs at h with _ hrange
  obtain rfl := Option.some.inj h
  exact ⟨rfl, hrange⟩

theorem Runtime.ReadsBack.addDays {rt : Runtime} (hrt : rt.ReadsBack) {t t' : Instant} {days : ℤ}
    (h : addDays t days = some t') : rt.parseIsoDt (rt.isoformat t') = some t' := by
  obtain ⟨-, hmin, hmax⟩ := addDays_eq_some h
  exact hrt t' hmin hmax

/-- A number as a row of strokes. -/
def strokes (t : ℤ) : List Char :=
  if t < 0 then '-' :: List.replicate t.natAbs '|' else List.replicate t.natAbs '|'

/-- The number of a row of strokes. -/
def countStrokes : List Char → ℤ
  | '-' :: cs => -cs.length
  | cs => cs.length

/-- A runtime that writes some moments as given texts, and the others as strokes. -/
def Runtime.ofTable (table : List (ℤ × String)) : Runtime where
  isoformat t :=
    match table.find? fun p => p.1 = t with
    | some p => p.2
    | none => String.ofList (strokes t)
  parseIsoDt text :=
    match table.find? fun p => p.2 = text with
    | some p => some p.1
    | none => some (countStrokes text.toList)

theorem countStrokes_strokes (t : ℤ) : countStrokes (strokes t) = t := by
  rw [strokes]
  split_ifs with hneg
  · rw [countStrokes, List.length_replicate]
    omega
  · have hlength : ∀ n : ℕ, countStrokes (List.replicate n '|') = n := by
      intro n
      cases n with
      | zero => rfl
      | succ n => rw [List.replicate_succ, countStrokes] <;> simp
    rw [hlength]
    omega

theorem Runtime.ofTable_readsBack {table : List (ℤ × String)}
    (hnodup : (table.map (·.2)).Nodup) (htexts : ∀ p ∈ table, 'T' ∈ p.2.toList) :
    (Runtime.ofTable table).ReadsBack := by
  intro t _ _
  simp only [Runtime.ofTable]
  cases hwritten : table.find? (fun p => p.1 = t) with
  | none =>
      have hother : table.find? (fun p => p.2 = String.ofList (strokes t)) = none := by
        refine List.find?_eq_none.2 fun p hp heq => ?_
        have htext := htexts p hp
        rw [of_decide_eq_true heq, String.toList_ofList, strokes] at htext
        split_ifs at htext <;> simp at htext
      simp only [hother, String.toList_ofList, countStrokes_strokes]
  | some p =>
      have hmem : p ∈ table := List.mem_of_find?_eq_some hwritten
      have ht : p.1 = t := by simpa using List.find?_some hwritten
      cases hread : table.find? (fun q => q.2 = p.2) with
      | none => exact absurd (decide_eq_true rfl) (List.find?_eq_none.1 hread p hmem)
      | some q =>
          have htext : q.2 = p.2 := by simpa using List.find?_some hread
          have hsame : q = p :=
            List.inj_on_of_nodup_map hnodup (List.mem_of_find?_eq_some hread) hmem htext
          simp only [hsame, ht]

/-! ### The new date of a row -/

namespace Fleet

variable (f : Fleet) (grace : Option ℤ → ℤ)

/-- The date that a scan computes for a row: its detection, and the grace period of its requester.
-/
def newDeleteAt (row : QueueEntry) : Option Instant :=
  (f.rt.parseIsoDt row.detectedAt).bind fun detected => addDays detected (grace row.seerrUserId)

/-- `_update_delete_at_if_pending`; the exception of a date that is out of range is caught. -/
def recompute (db : Database) (embyId : String) (lastPlayed : Option String) (playCount : ℤ) :
    Database :=
  match db.queue.rows.find? fun row => row.embyId = embyId && row.status = .pending with
  | none => db
  | some row =>
      if (f.newDeleteAt grace row.toQueueEntry).isNone then db
      else f.updateDeleteAtIfPending db embyId grace lastPlayed playCount

/-- What becomes of a row. -/
def recomputedRow (embyId : String) (lastPlayed : Option String) (playCount : ℤ) (row : QueueRow) :
    QueueRow :=
  if row.embyId = embyId ∧ row.status = .pending then
    match f.newDeleteAt grace row.toQueueEntry with
    | none => row
    | some t =>
        { row with deleteAt := f.rt.isoformat t, lastPlayed := lastPlayed, viewCount := playCount }
  else row

variable {f grace} {db : Database} {embyId : String} {lastPlayed : Option String} {playCount : ℤ}
  {row : QueueRow}

theorem newDeleteAt_eq_some {e : QueueEntry} {t : Instant} (h : f.newDeleteAt grace e = some t) :
    ∃ detected, f.rt.parseIsoDt e.detectedAt = some detected ∧
      addDays detected (grace e.seerrUserId) = some t := Option.bind_eq_some_iff.1 h

/-- **The rows after a recomputation.** -/
theorem rows_recompute : (f.recompute grace db embyId lastPlayed playCount).queue.rows =
    db.queue.rows.map (f.recomputedRow grace embyId lastPlayed playCount) := by
  have hsame : ∀ p : QueueRow → Prop, (∀ row ∈ db.queue.rows, p row →
      f.recomputedRow grace embyId lastPlayed playCount row = row) →
        (∀ row ∈ db.queue.rows, p row) → db.queue.rows =
          db.queue.rows.map (f.recomputedRow grace embyId lastPlayed playCount) := by
    intro p hp hall
    exact ((List.map_congr_left fun row hrow => hp row hrow (hall row hrow)).trans
      (List.map_id _)).symm
  simp only [recompute]
  split
  · next hnone =>
      refine hsame (fun row => ¬ (row.embyId = embyId ∧ row.status = .pending))
        (fun row _ hrow => if_neg hrow) fun row hrow => ?_
      simpa using List.find?_eq_none.1 hnone row hrow
  · next found hfound =>
      obtain ⟨hembyId, hpending⟩ : found.embyId = embyId ∧ found.status = .pending := by
        simpa using List.find?_some hfound
      have hmem := List.mem_of_find?_eq_some hfound
      -- the row that is found is the only one with the identifier
      have honly : ∀ row ∈ db.queue.rows, row.embyId = embyId → row = found :=
        fun row hrow hid => db.queue.eq_of_embyId hrow hmem (hid.trans hembyId.symm)
      split_ifs with hnone
      · refine hsame (fun _ => True) (fun row hrow _ => ?_) fun _ _ => trivial
        rw [recomputedRow]
        split_ifs with hthis
        · rw [honly row hrow hthis.1, Option.isNone_iff_eq_none.1 hnone]
        · rfl
      · obtain ⟨t, ht⟩ := Option.ne_none_iff_exists'.1 (Option.isNone_iff_eq_none.not.1 hnone)
        obtain ⟨detected, hdetected, hadd⟩ := newDeleteAt_eq_some ht
        have hdate := (addDays_eq_some hadd).1
        simp only [updateDeleteAtIfPending, hfound, hdetected, ← hdate]
        refine List.map_congr_left fun row hrow => ?_
        by_cases hid : row.id = found.id
        · obtain rfl := db.queue.eq_of_id hrow hmem hid
          rw [QueueTable.setWhere, if_pos (decide_eq_true hid), recomputedRow,
            if_pos (And.intro hembyId hpending), ht]
        · have hother : ¬ (row.embyId = embyId ∧ row.status = .pending) :=
            fun h => hid (congrArg (·.id) (honly row hrow h.1))
          rw [QueueTable.setWhere, if_neg (by simpa using hid), recomputedRow, if_neg hother]

/-- Rows with the same keys, status, detection and requester. -/
structure SameOrigin (row row' : QueueRow) : Prop where
  id : row'.id = row.id
  embyId : row'.embyId = row.embyId
  status : row'.status = row.status
  detectedAt : row'.detectedAt = row.detectedAt
  seerrUserId : row'.seerrUserId = row.seerrUserId

theorem SameOrigin.refl : SameOrigin row row := ⟨rfl, rfl, rfl, rfl, rfl⟩

theorem SameOrigin.trans {row' row'' : QueueRow} (h : SameOrigin row row')
    (h' : SameOrigin row' row'') : SameOrigin row row'' where
  id := h'.id.trans h.id
  embyId := h'.embyId.trans h.embyId
  status := h'.status.trans h.status
  detectedAt := h'.detectedAt.trans h.detectedAt
  seerrUserId := h'.seerrUserId.trans h.seerrUserId

theorem SameOrigin.newDeleteAt_eq {row' : QueueRow} (h : SameOrigin row row') :
    f.newDeleteAt grace row'.toQueueEntry = f.newDeleteAt grace row.toQueueEntry := by
  rw [newDeleteAt, newDeleteAt, h.detectedAt, h.seerrUserId]

theorem sameOrigin_recomputedRow :
    SameOrigin row (f.recomputedRow grace embyId lastPlayed playCount row) := by
  rw [recomputedRow]
  split_ifs
  · split <;> exact ⟨rfl, rfl, rfl, rfl, rfl⟩
  · exact .refl

/-- The date of a row after a recomputation. -/
def recomputedDate (f : Fleet) (grace : Option ℤ → ℤ) (row : QueueEntry) : String :=
  ((f.newDeleteAt grace row).map f.rt.isoformat).getD row.deleteAt

theorem deleteAt_recomputedRow :
    (f.recomputedRow grace embyId lastPlayed playCount row).deleteAt =
      if row.embyId = embyId ∧ row.status = .pending then f.recomputedDate grace row.toQueueEntry
      else row.deleteAt := by
  rw [recomputedRow, recomputedDate]
  split_ifs
  · split
    · next hnone => rw [hnone]; rfl
    · next t ht => rw [ht]; rfl
  · rfl

theorem recomputedDate_recomputedRow :
    f.recomputedDate grace
        (f.recomputedRow grace embyId lastPlayed playCount row).toQueueEntry =
      f.recomputedDate grace row.toQueueEntry := by
  have hdate := @deleteAt_recomputedRow f grace embyId lastPlayed playCount row
  rw [recomputedDate, sameOrigin_recomputedRow.newDeleteAt_eq, hdate]
  split_ifs
  · rw [recomputedDate]
    cases f.newDeleteAt grace row.toQueueEntry <;> rfl
  · rfl

/-- The date of a row is the one that a scan computes. -/
def Agrees (f : Fleet) (grace : Option ℤ → ℤ) (row : QueueEntry) : Prop :=
  ∀ t, f.newDeleteAt grace row = some t → f.rt.parseIsoDt row.deleteAt = some t

theorem Agrees.parse_recomputedDate (hrt : f.rt.ReadsBack) (h : f.Agrees grace row.toQueueEntry) :
    f.rt.parseIsoDt (f.recomputedDate grace row.toQueueEntry) = f.rt.parseIsoDt row.deleteAt := by
  rw [recomputedDate]
  cases hnew : f.newDeleteAt grace row.toQueueEntry with
  | none => rfl
  | some t =>
      obtain ⟨detected, -, hadd⟩ := newDeleteAt_eq_some hnew
      rw [Option.map_some, Option.getD_some, hrt.addDays hadd, h t hnew]

/-- A date that has been computed agrees. -/
theorem agrees_of_deleteAt (hrt : f.rt.ReadsBack) {row' : QueueRow} (h : SameOrigin row row')
    (hdate : row'.deleteAt = f.recomputedDate grace row.toQueueEntry) :
    f.Agrees grace row'.toQueueEntry := by
  intro t ht
  rw [h.newDeleteAt_eq] at ht
  obtain ⟨detected, -, hadd⟩ := newDeleteAt_eq_some ht
  rw [hdate, recomputedDate, ht, Option.map_some, Option.getD_some, hrt.addDays hadd]

theorem Agrees.congr {row' : QueueRow} (h : SameOrigin row row')
    (hdate : row'.deleteAt = row.deleteAt) (hagrees : f.Agrees grace row.toQueueEntry) :
    f.Agrees grace row'.toQueueEntry := by
  intro t ht
  rw [h.newDeleteAt_eq] at ht
  rw [hdate, hagrees t ht]

/-- A recomputation that does not move the row leaves the notifications. -/
theorem notifications_recompute (h : ∀ row ∈ db.queue.rows, row.embyId = embyId →
    row.status = .pending → f.Agrees grace row.toQueueEntry) :
    (f.recompute grace db embyId lastPlayed playCount).notifications = db.notifications := by
  simp only [recompute]
  split
  · rfl
  · next found hfound =>
      obtain ⟨hembyId, hpending⟩ : found.embyId = embyId ∧ found.status = .pending := by
        simpa using List.find?_some hfound
      have hagrees := h found (List.mem_of_find?_eq_some hfound) hembyId hpending
      split_ifs with hnone
      · rfl
      · obtain ⟨t, ht⟩ := Option.ne_none_iff_exists'.1 (Option.isNone_iff_eq_none.not.1 hnone)
        obtain ⟨detected, hdetected, hadd⟩ := newDeleteAt_eq_some ht
        have hdate := (addDays_eq_some hadd).1
        have hunmoved : ¬ (3600000000 : ℤ) < |t - t| := by
          rw [sub_self, abs_zero]
          omega
        simp only [updateDeleteAtIfPending, hfound, hdetected, ← hdate, hagrees t ht,
          decide_eq_false hunmoved, Bool.false_eq_true, if_false]

end Fleet

/-! ### Insertions -/

section Insertions

variable {queuedIds : List String} {entries : List QueueEntry} {entry : QueueEntry}
  {q : QueueTable} {row : QueueRow} {embyId : String}

/-- A group that is queued is not inserted. -/
theorem not_mem_of_mem_insertNew (h : entry ∈ insertNew (some queuedIds) entries) :
    entry.embyId ∉ queuedIds := by
  induction entries generalizing queuedIds with
  | nil => cases h
  | cons first entries ih =>
      rw [insertNew] at h
      split_ifs at h with hqueued
      · exact ih h
      · rcases List.mem_cons.1 h with rfl | hlater
        · exact hqueued
        · exact fun hmem => ih hlater (List.mem_cons_of_mem _ hmem)

namespace QueueTable

/-- A new row is the first entry with its identifier. -/
theorem find?_of_mem_foldl_insertOrIgnore (h : row ∈ (entries.foldl insertOrIgnore q).rows) :
    row ∈ q.rows ∨ row.embyId ∉ q.rows.map (·.embyId) ∧ row.status = .pending ∧
      entries.find? (·.embyId = row.embyId) = some row.toQueueEntry := by
  induction entries generalizing q with
  | nil => exact .inl h
  | cons entry entries ih =>
      rcases ih h with hmem | ⟨hnew, hpending, hfind⟩
      · rcases mem_insertOrIgnore.1 hmem with hold | ⟨hnew, rfl⟩
        · exact .inl hold
        · exact .inr ⟨hnew, rfl, List.find?_cons_of_pos (decide_eq_true rfl)⟩
      · have hother : entry.embyId ≠ row.embyId := by
          intro heq
          by_cases hthere : entry.embyId ∈ q.rows.map (·.embyId)
          · obtain ⟨old, hold, hid⟩ := List.mem_map.1 hthere
            exact hnew (List.mem_map.2 ⟨old, mem_insertOrIgnore.2 (.inl hold), hid.trans heq⟩)
          · exact hnew (List.mem_map.2
              ⟨q.newRow entry, mem_insertOrIgnore.2 (.inr ⟨hthere, rfl⟩), heq⟩)
        refine .inr ⟨fun hmem => hnew ?_, hpending, ?_⟩
        · obtain ⟨old, hold, hid⟩ := List.mem_map.1 hmem
          exact List.mem_map.2 ⟨old, mem_insertOrIgnore.2 (.inl hold), hid⟩
        · rw [List.find?_cons_of_neg (by simpa using hother)]
          exact hfind

/-- The first entry with a new identifier becomes a row. -/
theorem exists_of_find? (hnew : embyId ∉ q.rows.map (·.embyId))
    (hfind : entries.find? (·.embyId = embyId) = some entry) :
    ∃ row ∈ (entries.foldl insertOrIgnore q).rows, row.toQueueEntry = entry ∧
      row.status = .pending := by
  induction entries generalizing q with
  | nil => cases hfind
  | cons first entries ih =>
      by_cases hfirst : first.embyId = embyId
      · rw [List.find?_cons, decide_eq_true hfirst] at hfind
        obtain rfl := Option.some.inj hfind
        have hadded : q.newRow first ∈ (q.insertOrIgnore first).rows :=
          mem_insertOrIgnore.2 (.inr ⟨hfirst ▸ hnew, rfl⟩)
        rw [List.foldl_cons]
        exact ⟨q.newRow first, mem_foldl_insertOrIgnore_of_mem hadded, rfl, rfl⟩
      · rw [List.find?_cons_of_neg (by simpa using hfirst)] at hfind
        refine ih (fun hmem => ?_) hfind
        obtain ⟨old, hold, hid⟩ := List.mem_map.1 hmem
        rcases mem_insertOrIgnore.1 hold with hold | ⟨-, rfl⟩
        · exact hnew (List.mem_map.2 ⟨old, hold, hid⟩)
        · exact hfirst hid

end QueueTable

end Insertions

/-- An insertion leaves the notifications of the other rows. -/
theorem Fleet.mem_notifications_insertEntry {f : Fleet} {db : Database} {entry : QueueEntry}
    {sent : Bool} {row : QueueRow} {threshold : String} (hrow : row ∈ db.queue.rows)
    (hother : row.embyId ≠ entry.embyId) :
    (row.id, threshold) ∈ (f.apply db (.insertEntry entry sent)).notifications ↔
      (row.id, threshold) ∈ db.notifications := by
  have hstays : row ∈ (db.queue.insertOrIgnore entry).rows :=
    QueueTable.mem_insertOrIgnore.2 (.inl hrow)
  have hne : ∀ found ∈ (db.queue.insertOrIgnore entry).rows, found.embyId = entry.embyId →
      found.id ≠ row.id := by
    intro found hfound hid heq
    obtain rfl := (db.queue.insertOrIgnore entry).eq_of_id hfound hstays heq
    exact hother hid
  have hpre : ∀ db' : Database, db'.queue = db.queue.insertOrIgnore entry →
      ((row.id, threshold) ∈
        (f.preMarkApplicableThresholds db' entry.embyId entry.deleteAt).notifications ↔
          (row.id, threshold) ∈ db'.notifications) := by
    intro db' hqueue
    rw [preMarkApplicableThresholds]
    rcases preMark_cases with heq | ⟨found, hmem, hid, met, heq⟩
    · rw [heq]
    · rw [heq, mem_record]
      refine or_iff_right fun hmark => ?_
      obtain ⟨days, -, hdays⟩ := List.mem_map.1 hmark
      exact hne found (hqueue ▸ hmem) hid (congrArg Prod.fst hdays)
  have hmark : ∀ db' : Database, db'.queue = db.queue.insertOrIgnore entry →
      ((row.id, threshold) ∈ (markNotifiedDetected db' entry.embyId).notifications ↔
        (row.id, threshold) ∈ db'.notifications) := by
    intro db' hqueue
    simp only [markNotifiedDetected]
    split
    · exact Iff.rfl
    · next found hfound =>
        have hid : found.embyId = entry.embyId ∧ found.status = .pending := by
          simpa using List.find?_some hfound
        have hmem := hqueue ▸ List.mem_of_find?_eq_some hfound
        exact List.mem_insert_iff.trans
          (or_iff_right fun heq => hne found hmem hid.1 (congrArg Prod.fst heq).symm)
  simp only [apply]
  split_ifs
  · rw [hmark _ queue_preMark, hpre _ rfl]
  · rw [hpre _ rfl]

/-! ### The scan -/

/-- What a scan reads off the clock for an item: for its age and plays, as the grace period is
added, and as the entry is built; a rule adds its period to the last of these. -/
structure ScanClock where
  judged : ScannedItem → Instant
  decided : ScannedItem → Instant
  built : ScannedItem → Instant

/-- What may differ between two scans: the clock, the failures of the two updates of plays, and
which notifications are sent. -/
structure ScanTime where
  clock : ScanClock
  logFails : Bool := false
  watchFails : Bool := false
  sent : QueueEntry → Bool := fun _ => false

/-- What stays the same: the library with its rules, the requests, the items with their plays, and
the activity log.  What is queued is read from the table. -/
structure RescanSetting where
  f : Fleet
  requests : RequestCache
  sc : LibraryScan
  items : List ScannedItem
  plays : List (String × String)
  iso : String → Instant → String

namespace RescanSetting

variable (s : RescanSetting) (c : ScanTime) (db : Database)

/-- The runtime as an item is judged. -/
def runtime (item : ScannedItem) : Runtime := { s.f.rt with now := c.clock.judged item }

/-- The scan of the library, with the identifiers that are queued as it starts. -/
def scan : LibraryScan := { s.sc with queuedIds := db.queue.rows.map (·.embyId) }

/-- An item has what is required, and meets the conditions of the library. -/
def selects (item : ScannedItem) : Bool :=
  match item.dateCreated.parse with
  | none => false
  | some added =>
      item.id ≠ "" && item.path ≠ "" &&
        evaluateConditions (c.clock.judged item) s.sc.lib.conditions s.sc.lib.logic (some added)
          item.state.lastPlayed item.state.playCount item.state.neverWatched

/-- `_evaluate_item`: the entry of an item, if there is one; nothing stands for an exception. -/
def evaluated (item : ScannedItem) : Option (Option QueueEntry) :=
  match evaluateItem (s.runtime c item) s.requests (s.scan db) item with
  | none => some none
  | some entry =>
      (addDays (c.clock.decided item) (s.sc.grace entry.seerrUserId)).map fun deleteAt =>
        some { entry with
          detectedAt := s.f.rt.isoformat (c.clock.built item)
          deleteAt := s.f.rt.isoformat deleteAt }

/-- The grace period of the rule that an item matches. -/
def ruleGrace (item : ScannedItem) : ℤ :=
  (evaluateExpertRules s.sc.rules
    (buildItemData (c.clock.judged item) item.facts item.state.playCount item.state.lastPlayed
      item.dateCreated.parse ((lookupSeerrRequest s.requests item.tmdbId).bind (·.userId)))
    (some s.sc.lib.id)).2

/-- `_evaluate_expert_rules_fallback`. -/
def matched (item : ScannedItem) : Option (Option QueueEntry) :=
  match evaluateExpertRulesFallback (s.runtime c item) s.requests (s.scan db) item with
  | none => some none
  | some entry =>
      (addDays (c.clock.built item) (s.ruleGrace c item)).map fun deleteAt =>
        some { entry with
          detectedAt := s.f.rt.isoformat (c.clock.built item)
          deleteAt := s.f.rt.isoformat deleteAt
          addedDate := some (s.f.rt.isoformat (item.dateCreated.parse.getD (c.clock.built item))) }

/-- The round of `_collect_eligible_items` for one item. -/
def collectedEntry (item : ScannedItem) : Option (Option QueueEntry) :=
  match s.evaluated c db item with
  | none => none
  | some (some entry) => some (some entry)
  | some none =>
      if item.id = "" ∨ item.path = "" ∨ item.id ∈ (s.scan db).queuedIds ∨ item.id ∈ s.sc.ignoredIds
        then some none
      else s.matched c db item

/-- The items that a scan comes to: an exception ends it. -/
def reached : List ScannedItem := s.items.takeWhile fun item => (s.collectedEntry c db item).isSome

/-- No item raises an exception. -/
def completes : Bool := s.items.all fun item => (s.collectedEntry c db item).isSome

/-- The items whose rows have their date computed anew. -/
def rewritten : List ScannedItem :=
  (s.reached c db).filter fun item => s.selects c item && item.id ∈ (s.scan db).queuedIds

/-- The recomputations for some items. -/
def recomputed (items : List ScannedItem) (db : Database) : Database :=
  items.foldl (fun db item => s.f.recompute s.sc.grace db item.id
    (item.state.lastPlayed.map (s.iso item.id)) item.state.playCount) db

/-- What a scan leaves before the sums of the groups are written. -/
def collected : Database :=
  s.recomputed (s.rewritten c db) (if c.logFails then db else s.f.apply db (.activityLog s.plays))

/-- What a scan leaves before it inserts anything. -/
def summed : Database :=
  if s.completes c db = true ∧ s.sc.deletionUnit ≠ .episode ∧ c.watchFails = false then
    s.f.apply (s.collected c db)
      (.consolidatedWatch (consolidatedParams s.iso s.sc.sonarrCache s.items))
  else s.collected c db

/-- The entries that a scan inserts. -/
def entries : List QueueEntry :=
  if s.completes c db then
    insertEligibleEntries s.f.rt (s.scan db)
      (s.items.filterMap fun item => (s.collectedEntry c db item).join)
  else []

/-- `_scan_library`. -/
def after : Database :=
  (s.entries c db).foldl (fun db entry => s.f.apply db (.insertEntry entry (c.sent entry)))
    (s.summed c db)

/-- **The law**: a second scan leaves the dates of the pending rows, as moments, and their
notifications. -/
def Idempotent (c' : ScanTime) : Prop :=
  ∀ row ∈ (s.after c db).queue.rows, row.status = .pending →
    ∃ row' ∈ (s.after c' (s.after c db)).queue.rows, row'.id = row.id ∧
      s.f.rt.parseIsoDt row'.deleteAt = s.f.rt.parseIsoDt row.deleteAt ∧
      ∀ threshold, (row.id, threshold) ∈ (s.after c' (s.after c db)).notifications ↔
        (row.id, threshold) ∈ (s.after c db).notifications

variable {s : RescanSetting} {c c' : ScanTime} {db db' : Database} {row row' : QueueRow}
  {item : ScannedItem} {items : List ScannedItem} {entry : QueueEntry}

/-! ### The rows that are there -/

/-- A change of rows that gives some of them the date that a scan computes, and leaves the dates of
the others. -/
structure Redates (s : RescanSetting) (moved : QueueRow → Prop) (g : QueueRow → QueueRow) :
    Prop where
  same : ∀ row, Fleet.SameOrigin row (g row)
  new : ∀ row, moved row → (g row).deleteAt = s.f.recomputedDate s.sc.grace row.toQueueEntry
  old : ∀ row, ¬ moved row → (g row).deleteAt = row.deleteAt

/-- A pending row of one of the items. -/
def IsPendingOf (items : List ScannedItem) (row : QueueRow) : Prop :=
  row.status = .pending ∧ ∃ item ∈ items, item.id = row.embyId

theorem IsPendingOf.congr (h : Fleet.SameOrigin row row') :
    IsPendingOf items row' ↔ IsPendingOf items row := by
  rw [IsPendingOf, IsPendingOf, h.status, h.embyId]

/-- The recomputations for some items. -/
theorem redates_recomputed : ∃ g, s.Redates (IsPendingOf items) g ∧
    (s.recomputed items db).queue.rows = db.queue.rows.map g := by
  induction items generalizing db with
  | nil =>
      refine ⟨id, ⟨fun _ => .refl, fun row hrow => ?_, fun _ _ => rfl⟩, (List.map_id _).symm⟩
      obtain ⟨-, item, hitem, -⟩ := hrow
      exact absurd hitem List.not_mem_nil
  | cons item items ih =>
      let first := s.f.recomputedRow s.sc.grace item.id (item.state.lastPlayed.map (s.iso item.id))
        item.state.playCount
      have hsame : ∀ row, Fleet.SameOrigin row (first row) :=
        fun _ => Fleet.sameOrigin_recomputedRow
      have hdate : ∀ row, (first row).deleteAt =
          if row.embyId = item.id ∧ row.status = .pending
            then s.f.recomputedDate s.sc.grace row.toQueueEntry else row.deleteAt :=
        fun _ => Fleet.deleteAt_recomputedRow
      obtain ⟨g, hg, hrows⟩ := @ih (s.f.recompute s.sc.grace db item.id
        (item.state.lastPlayed.map (s.iso item.id)) item.state.playCount)
      rw [Fleet.rows_recompute, List.map_map] at hrows
      refine ⟨g ∘ first, ⟨fun row => (hsame row).trans (hg.same _), fun row hrow => ?_,
        fun row hrow => ?_⟩, hrows⟩
      · -- all recomputations of the row compute the same date
        by_cases hlater : IsPendingOf items row
        · have hnew := hg.new (first row) ((IsPendingOf.congr (hsame row)).2 hlater)
          exact hnew.trans Fleet.recomputedDate_recomputedRow
        · obtain ⟨hpending, other, hother, hid⟩ := hrow
          have hthis : other = item := by
            rcases List.mem_cons.1 hother with heq | hmem
            · exact heq
            · exact absurd ⟨hpending, other, hmem, hid⟩ hlater
          have hkept := hg.old (first row) (mt (IsPendingOf.congr (hsame row)).1 hlater)
          rw [Function.comp_apply, hkept, hdate, if_pos ⟨hthis ▸ hid.symm, hpending⟩]
      · have hlater : ¬ IsPendingOf items row := by
          rintro ⟨hpending, other, hother, hid⟩
          exact hrow ⟨hpending, other, List.mem_cons_of_mem _ hother, hid⟩
        have hthis : ¬ (row.embyId = item.id ∧ row.status = .pending) := by
          rintro ⟨hid, hpending⟩
          exact hrow ⟨hpending, item, List.mem_cons_self .., hid.symm⟩
        have hkept := hg.old (first row) (mt (IsPendingOf.congr (hsame row)).1 hlater)
        rw [Function.comp_apply, hkept, hdate, if_neg hthis]

/-- Writes of plays leave the dates. -/
theorem redates_writes {writes : List WatchWrite} {q : QueueTable} :
    ∃ g, s.Redates (fun _ => False) g ∧
      (writes.foldl QueueTable.writeWatchState q).rows = q.rows.map g := by
  induction writes generalizing q with
  | nil => exact ⟨id, ⟨fun _ => .refl, fun _ => False.elim, fun _ _ => rfl⟩, (List.map_id _).symm⟩
  | cons write writes ih =>
      obtain ⟨g, hg, hrows⟩ := @ih (q.writeWatchState write)
      have hfirst : ∀ row, Fleet.SameOrigin row (write.applyTo row) ∧
          (write.applyTo row).deleteAt = row.deleteAt := by
        intro row
        rw [WatchWrite.applyTo, QueueTable.setWhere]
        split_ifs
        · exact ⟨⟨rfl, rfl, rfl, rfl, rfl⟩, rfl⟩
        · exact ⟨.refl, rfl⟩
      refine ⟨g ∘ write.applyTo, ⟨fun row => ?_, fun _ => False.elim, fun row _ => ?_⟩, ?_⟩
      · exact (hfirst row).1.trans (hg.same _)
      · exact (hg.old _ not_false).trans (hfirst row).2
      · rw [List.foldl_cons, hrows, ← List.map_map]
        rfl

/-- A change that moves nothing may come before or after another one. -/
theorem Redates.comp {moved : QueueRow → Prop} {g g' : QueueRow → QueueRow}
    (hmoved : ∀ row row', Fleet.SameOrigin row row' → (moved row' ↔ moved row))
    (hg : s.Redates (fun _ => False) g) (hg' : s.Redates moved g') : s.Redates moved (g' ∘ g) where
  same row := (hg.same row).trans (hg'.same _)
  new row hrow := by
    have hnew := hg'.new (g row) ((hmoved row _ (hg.same row)).2 hrow)
    rw [Function.comp_apply, hnew, Fleet.recomputedDate, Fleet.recomputedDate,
      (hg.same row).newDeleteAt_eq, hg.old row not_false]
  old row hrow := (hg'.old _ (mt (hmoved row _ (hg.same row)).1 hrow)).trans (hg.old row not_false)

theorem Redates.comp' {moved : QueueRow → Prop} {g g' : QueueRow → QueueRow}
    (hg : s.Redates moved g) (hg' : s.Redates (fun _ => False) g') : s.Redates moved (g' ∘ g) where
  same row := (hg.same row).trans (hg'.same _)
  new row hrow := (hg'.old _ not_false).trans (hg.new row hrow)
  old row hrow := (hg'.old _ not_false).trans (hg.old row hrow)

/-- What a scan does to the rows that are there, before it inserts anything. -/
theorem redates_collected : ∃ g, s.Redates (IsPendingOf (s.rewritten c db)) g ∧
    (s.collected c db).queue.rows = db.queue.rows.map g := by
  obtain ⟨g, hg, hrows⟩ := @redates_recomputed s
    (if c.logFails then db else s.f.apply db (.activityLog s.plays)) (s.rewritten c db)
  split_ifs at hrows with hfails
  · refine ⟨g, hg, ?_⟩
    rw [collected, if_pos hfails, hrows]
  · obtain ⟨g', hg', hrows'⟩ := @redates_writes s ((s.plays.filter (·.2 ≠ "")).map fun play =>
      { played := play.2, viewCount := 1, embyId := play.1 : WatchWrite }) db.queue
    refine ⟨g ∘ g', hg'.comp (fun _ _ => IsPendingOf.congr) hg, ?_⟩
    rw [collected, if_neg hfails, hrows, ← List.map_map, ← hrows']
    rfl

theorem redates_summed : ∃ g, s.Redates (IsPendingOf (s.rewritten c db)) g ∧
    (s.summed c db).queue.rows = db.queue.rows.map g := by
  obtain ⟨g, hg, hrows⟩ := @redates_collected s c db
  rw [summed]
  split_ifs
  · obtain ⟨g', hg', hrows'⟩ := @redates_writes s
      (consolidatedParams s.iso s.sc.sonarrCache s.items) (s.collected c db).queue
    rw [hrows, List.map_map] at hrows'
    exact ⟨g' ∘ g, hg.comp' hg', hrows'⟩
  · exact ⟨g, hg, hrows⟩

/-! ### The rows that are new -/

/-- What is collected is not queued yet. -/
theorem embyId_of_collectedEntry (h : s.collectedEntry c db item = some (some entry)) :
    entry.embyId = item.id ∧ item.id ∉ db.queue.rows.map (·.embyId) := by
  have hevaluated : ∀ entry,
      evaluateItem (s.runtime c item) s.requests (s.scan db) item = some entry →
      entry.embyId = item.id ∧ item.id ∉ db.queue.rows.map (·.embyId) := by
    intro entry hentry
    simp only [evaluateItem] at hentry
    split at hentry
    · cases hentry
    · split_ifs at hentry with _ _ hskipped
      obtain rfl := Option.some.inj hentry
      exact ⟨rfl, fun hmem => hskipped (.inl hmem)⟩
  have hmatched : ∀ entry,
      evaluateExpertRulesFallback (s.runtime c item) s.requests (s.scan db) item = some entry →
        entry.embyId = item.id := by
    intro entry hentry
    simp only [evaluateExpertRulesFallback] at hentry
    split at hentry
    · obtain rfl := Option.some.inj hentry
      rfl
    · cases hentry
  rw [collectedEntry] at h
  split at h
  · cases h
  · next entry' hentry =>
      obtain rfl := Option.some.inj (Option.some.inj h)
      simp only [evaluated] at hentry
      split at hentry
      · cases hentry
      · next found hfound =>
          obtain ⟨t, -, heq⟩ := Option.map_eq_some_iff.1 hentry
          obtain rfl := Option.some.inj heq
          exact hevaluated found hfound
  · split_ifs at h with hskipped
    · cases h
    · simp only [matched] at h
      split at h
      · cases h
      · next found hfound =>
          obtain ⟨t, -, heq⟩ := Option.map_eq_some_iff.1 h
          obtain rfl := Option.some.inj heq
          exact ⟨hmatched found hfound, fun hmem => hskipped (.inr (.inr (.inl hmem)))⟩

/-- What is inserted is not queued yet. -/
theorem embyId_of_mem_entries (h : entry ∈ s.entries c db) :
    entry.embyId ∉ db.queue.rows.map (·.embyId) := by
  rw [entries] at h
  split_ifs at h
  · simp only [insertEligibleEntries] at h
    split at h
    · obtain ⟨item, -, hitem⟩ := List.mem_filterMap.1 h
      obtain ⟨hid, hfree⟩ := embyId_of_collectedEntry (Option.join_eq_some_iff.1 hitem)
      exact hid ▸ hfree
    · exact not_mem_of_mem_insertNew h
  · exact absurd h List.not_mem_nil

/-! ### What a scan leaves -/

theorem queue_after : (s.after c db).queue =
    (s.entries c db).foldl QueueTable.insertOrIgnore (s.summed c db).queue := by
  have hfold : ∀ (l : List QueueEntry) (db : Database),
      (l.foldl (fun db entry => s.f.apply db (.insertEntry entry (c.sent entry))) db).queue =
        l.foldl QueueTable.insertOrIgnore db.queue := by
    intro l
    induction l with
    | nil => exact fun _ => rfl
    | cons entry l ih =>
        intro db
        rw [List.foldl_cons, List.foldl_cons, ih, Fleet.queue_insertEntry]
  exact hfold _ _

/-- **What becomes of the rows of the queue**: those that are there may get a new date, and others
are the first entries with their identifiers. -/
theorem mem_after : ∃ g, s.Redates (IsPendingOf (s.rewritten c db)) g ∧
    (s.summed c db).queue.rows = db.queue.rows.map g ∧
    (∀ row ∈ db.queue.rows, g row ∈ (s.after c db).queue.rows) ∧
    ∀ row ∈ (s.after c db).queue.rows, (∃ old ∈ db.queue.rows, g old = row) ∨
      row.embyId ∉ db.queue.rows.map (·.embyId) ∧ row.status = .pending ∧
        (s.entries c db).find? (·.embyId = row.embyId) = some row.toQueueEntry := by
  obtain ⟨g, hg, hrows⟩ := @redates_summed s c db
  have hids : (s.summed c db).queue.rows.map (·.embyId) = db.queue.rows.map (·.embyId) := by
    rw [hrows, List.map_map]
    exact List.map_congr_left fun row _ => (hg.same row).embyId
  refine ⟨g, hg, hrows, fun row hrow => ?_, fun row hrow => ?_⟩
  · rw [queue_after]
    exact QueueTable.mem_foldl_insertOrIgnore_of_mem (hrows ▸ List.mem_map_of_mem hrow)
  · rw [queue_after] at hrow
    rcases QueueTable.find?_of_mem_foldl_insertOrIgnore hrow with hold | ⟨hnew, hpending, hfind⟩
    · rw [hrows] at hold
      exact .inl (List.mem_map.1 hold)
    · exact .inr ⟨hids ▸ hnew, hpending, hfind⟩

/-- The first entry with a new identifier becomes a row. -/
theorem exists_mem_after {embyId : String} (hnew : embyId ∉ db.queue.rows.map (·.embyId))
    (hfind : (s.entries c db).find? (·.embyId = embyId) = some entry) :
    ∃ row ∈ (s.after c db).queue.rows, row.toQueueEntry = entry ∧ row.status = .pending := by
  obtain ⟨g, hg, hrows⟩ := @redates_summed s c db
  rw [queue_after]
  refine QueueTable.exists_of_find? (fun hmem => hnew ?_) hfind
  rw [hrows, List.map_map] at hmem
  obtain ⟨row, hrow, hid⟩ := List.mem_map.1 hmem
  exact List.mem_map.2 ⟨row, hrow, (hg.same row).embyId.symm.trans hid⟩

/-- Rows that agree keep their notifications as their dates are computed anew. -/
theorem notifications_recomputed (hrt : s.f.rt.ReadsBack)
    (h : ∀ row ∈ db.queue.rows, IsPendingOf items row → s.f.Agrees s.sc.grace row.toQueueEntry) :
    (s.recomputed items db).notifications = db.notifications := by
  induction items generalizing db with
  | nil => rfl
  | cons item items ih =>
      refine (ih fun row' hrow' hpending => ?_).trans (Fleet.notifications_recompute ?_)
      · rw [Fleet.rows_recompute] at hrow'
        obtain ⟨row, hrow, rfl⟩ := List.mem_map.1 hrow'
        have hsame := @Fleet.sameOrigin_recomputedRow s.f s.sc.grace item.id
          (item.state.lastPlayed.map (s.iso item.id)) item.state.playCount row
        obtain ⟨hstatus, other, hother, hid⟩ := (IsPendingOf.congr hsame).1 hpending
        have hagrees := h row hrow ⟨hstatus, other, List.mem_cons_of_mem _ hother, hid⟩
        have hdate := @Fleet.deleteAt_recomputedRow s.f s.sc.grace item.id
          (item.state.lastPlayed.map (s.iso item.id)) item.state.playCount row
        split_ifs at hdate
        · exact Fleet.agrees_of_deleteAt hrt hsame hdate
        · exact hagrees.congr hsame hdate
      · exact fun row hrow hid hpending =>
          h row hrow ⟨hpending, item, List.mem_cons_self .., hid.symm⟩

/-- Insertions of other items leave the notifications of a row. -/
theorem notifications_insertEntries {l : List QueueEntry} (hrow : row ∈ db.queue.rows)
    (hl : ∀ entry ∈ l, row.embyId ≠ entry.embyId) {threshold : String} :
    (row.id, threshold) ∈ (l.foldl (fun db entry =>
        s.f.apply db (.insertEntry entry (c.sent entry))) db).notifications ↔
      (row.id, threshold) ∈ db.notifications := by
  induction l generalizing db with
  | nil => exact Iff.rfl
  | cons entry l ih =>
      obtain ⟨hfirst, hrest⟩ := List.forall_mem_cons.1 hl
      have hstays : row ∈ (s.f.apply db (.insertEntry entry (c.sent entry))).queue.rows := by
        rw [Fleet.queue_insertEntry]
        exact QueueTable.mem_insertOrIgnore.2 (.inl hrow)
      rw [List.foldl_cons, ih hstays hrest, Fleet.mem_notifications_insertEntry hrow hfirst]

/-- A scan that moves nothing leaves the notifications of the rows that are there. -/
theorem notifications_after (hrt : s.f.rt.ReadsBack)
    (h : ∀ row ∈ db.queue.rows, IsPendingOf (s.rewritten c db) row →
      s.f.Agrees s.sc.grace row.toQueueEntry) (hrow : row ∈ db.queue.rows) {threshold : String} :
    (row.id, threshold) ∈ (s.after c db).notifications ↔
    (row.id, threshold) ∈ db.notifications := by
  have hcollected : (s.collected c db).notifications = db.notifications := by
    rw [collected]
    split_ifs
    · exact notifications_recomputed hrt h
    · refine (notifications_recomputed hrt fun row' hrow' hpending => ?_).trans rfl
      obtain ⟨g, hg, hrows⟩ := @redates_writes s ((s.plays.filter (·.2 ≠ "")).map fun play =>
        { played := play.2, viewCount := 1, embyId := play.1 : WatchWrite }) db.queue
      obtain ⟨old, hold, rfl⟩ := List.mem_map.1 (hrows ▸ hrow' : row' ∈ db.queue.rows.map g)
      have hagrees := h old hold ((IsPendingOf.congr (hg.same old)).1 hpending)
      exact hagrees.congr (hg.same old) (hg.old old not_false)
  have hsummed : (s.summed c db).notifications = db.notifications := by
    rw [summed]
    split_ifs
    · exact hcollected
    · exact hcollected
  obtain ⟨g, hg, hrows⟩ := @redates_summed s c db
  have hstays : g row ∈ (s.summed c db).queue.rows := hrows ▸ List.mem_map_of_mem hrow
  rw [after, ← (hg.same row).id, notifications_insertEntries hstays fun entry hentry heq => ?_,
    hsummed]
  refine embyId_of_mem_entries hentry (List.mem_map.2 ⟨row, hrow, ?_⟩)
  rw [← heq, (hg.same row).embyId]

/-! ### The law -/

/-- The date of a row is the one that a scan of the library would compute. -/
def Agrees (s : RescanSetting) (row : QueueEntry) : Prop := s.f.Agrees s.sc.grace row

/-- The second scan leaves the rows as they are if and only if the rows whose items it selects have
the dates that it computes. -/
theorem idempotent_iff_agrees (hrt : s.f.rt.ReadsBack) : s.Idempotent c db c' ↔
    ∀ row ∈ (s.after c db).queue.rows, IsPendingOf (s.rewritten c' (s.after c db)) row →
      s.Agrees row.toQueueEntry := by
  obtain ⟨g, hg, -, hmem, -⟩ := @mem_after s c' (s.after c db)
  constructor
  · intro h row hrow hpending t ht
    obtain ⟨row', hrow', hid, hdate, -⟩ := h row hrow hpending.1
    have hsame : row' = g row := by
      refine (s.after c' (s.after c db)).queue.eq_of_id hrow' (hmem row hrow) ?_
      rw [hid, (hg.same row).id]
    have hagrees := Fleet.agrees_of_deleteAt hrt (hg.same row) (hg.new row hpending) t
    rw [(hg.same row).newDeleteAt_eq] at hagrees
    rw [← hdate, hsame]
    exact hagrees ht
  · intro h row hrow hpending
    refine ⟨g row, hmem row hrow, (hg.same row).id, ?_, fun threshold => ?_⟩
    · by_cases hmoved : IsPendingOf (s.rewritten c' (s.after c db)) row
      · rw [hg.new row hmoved]
        exact Fleet.Agrees.parse_recomputedDate hrt (h row hrow hmoved)
      · rw [hg.old row hmoved]
    · exact notifications_after hrt h hrow

/-- The date of an entry is some days after a moment. -/
theorem agrees_iff_of_addDays {start built days t : ℤ}
    (hdetected : s.f.rt.parseIsoDt entry.detectedAt = some built)
    (hdelete : s.f.rt.parseIsoDt entry.deleteAt = some t) (ht : addDays start days = some t) :
    s.Agrees entry ↔ addDays built (s.sc.grace entry.seerrUserId) = none ∨
      start + days * 86400000000 = built + s.sc.grace entry.seerrUserId * 86400000000 := by
  have hnew : s.f.newDeleteAt s.sc.grace entry = addDays built (s.sc.grace entry.seerrUserId) := by
    rw [Fleet.newDeleteAt, hdetected, Option.bind_some]
  have hstart : t = start + days * 86400000000 := (addDays_eq_some ht).1
  rw [Agrees, Fleet.Agrees, hnew, hdelete]
  constructor
  · intro hagrees
    cases hbuilt : addDays built (s.sc.grace entry.seerrUserId) with
    | none => exact .inl rfl
    | some t' =>
        have hsame : t = t' := Option.some.inj (hagrees t' hbuilt)
        exact .inr (hstart ▸ hsame.trans (addDays_eq_some hbuilt).1)
  · rintro (hnone | hsame) t' ht'
    · rw [hnone] at ht'
      cases ht'
    · rw [(addDays_eq_some ht').1, hstart, hsame]

/-- An entry that the conditions have queued agrees if the lookups before it was built took no time.
-/
theorem agrees_evaluated_iff (hrt : s.f.rt.ReadsBack)
    (h : s.evaluated c db item = some (some entry))
    (hmin : minInstant ≤ c.clock.built item) (hmax : c.clock.built item ≤ maxInstant) :
    s.Agrees entry ↔ addDays (c.clock.built item) (s.sc.grace entry.seerrUserId) = none ∨
      c.clock.decided item = c.clock.built item := by
  simp only [evaluated] at h
  split at h
  · cases h
  · next found hfound =>
      obtain ⟨t, ht, heq⟩ := Option.map_eq_some_iff.1 h
      obtain rfl := Option.some.inj heq
      rw [agrees_iff_of_addDays (hrt _ hmin hmax) (hrt.addDays ht) ht]
      exact or_congr_right (add_left_inj _)

/-- An entry that a rule has queued agrees if the rule has the grace period of the requester. -/
theorem agrees_matched_iff (hrt : s.f.rt.ReadsBack)
    (h : s.matched c db item = some (some entry))
    (hmin : minInstant ≤ c.clock.built item) (hmax : c.clock.built item ≤ maxInstant) :
    s.Agrees entry ↔ addDays (c.clock.built item) (s.sc.grace entry.seerrUserId) = none ∨
      s.ruleGrace c item = s.sc.grace entry.seerrUserId := by
  simp only [matched] at h
  split at h
  · cases h
  · next found hfound =>
      obtain ⟨t, ht, heq⟩ := Option.map_eq_some_iff.1 h
      obtain rfl := Option.some.inj heq
      rw [agrees_iff_of_addDays (hrt _ hmin hmax) (hrt.addDays ht) ht, add_right_inj]
      exact or_congr_right (mul_left_inj' (by norm_num))

/-- **Exactly when the second scan changes nothing.**  For every item that it comes to and that
meets the conditions: a pending row that was there before the first scan had its date computed by
that scan already, or has the date that it would compute, and a row that the first scan has inserted
is of an entry that has. -/
theorem idempotent_iff (hrt : s.f.rt.ReadsBack) : s.Idempotent c db c' ↔
    ∀ item ∈ s.reached c' (s.after c db), s.selects c' item = true →
      (∀ row ∈ db.queue.rows, row.embyId = item.id → row.status = .pending →
        (∃ other ∈ s.reached c db, other.id = item.id ∧ s.selects c other = true) ∨
          s.Agrees row.toQueueEntry) ∧
      ∀ entry, (s.entries c db).find? (·.embyId = item.id) = some entry → s.Agrees entry := by
  obtain ⟨g, hg, -, hmem, hrows⟩ := @mem_after s c db
  -- an item is rewritten if it is reached, selected and queued
  have hrewritten : ∀ c db item, item ∈ s.rewritten c db ↔ item ∈ s.reached c db ∧
      s.selects c item = true ∧ item.id ∈ db.queue.rows.map (·.embyId) := by
    intro c db item
    rw [rewritten, List.mem_filter, Bool.and_eq_true, decide_eq_true_eq]
    rfl
  rw [idempotent_iff_agrees hrt]
  constructor
  · intro h item hitem hselects
    constructor
    · intro row hrow hid hpending
      by_cases hbefore : ∃ other ∈ s.reached c db, other.id = item.id ∧ s.selects c other = true
      · exact .inl hbefore
      · have hunmoved : ¬ IsPendingOf (s.rewritten c db) row := by
          rintro ⟨-, other, hother, hotherId⟩
          obtain ⟨hreached, hselected, -⟩ := (hrewritten ..).1 hother
          exact hbefore ⟨other, hreached, hotherId.trans hid, hselected⟩
        have hagrees := h (g row) (hmem row hrow) ?_
        · right
          intro t ht
          have hnew := hagrees t
          rw [(hg.same row).newDeleteAt_eq, hg.old row hunmoved] at hnew
          exact hnew ht
        · refine ⟨(hg.same row).status.trans hpending, item, (hrewritten ..).2
            ⟨hitem, hselects, ?_⟩, ?_⟩
          · exact List.mem_map.2 ⟨g row, hmem row hrow, (hg.same row).embyId.trans hid⟩
          · rw [(hg.same row).embyId, hid]
    · intro entry hfind
      have hnew := embyId_of_mem_entries (List.mem_of_find?_eq_some hfind)
      have hid : entry.embyId = item.id := by simpa using List.find?_some hfind
      obtain ⟨row, hrow, rfl, hpending⟩ := exists_mem_after (hid ▸ hnew) hfind
      refine h row hrow ⟨hpending, item, (hrewritten ..).2 ⟨hitem, hselects, ?_⟩, hid.symm⟩
      exact List.mem_map.2 ⟨row, hrow, hid⟩
  · rintro h row hrow ⟨hpending, item, hitem, hid⟩
    obtain ⟨hreached, hselected, -⟩ := (hrewritten ..).1 hitem
    obtain ⟨hold, hnew⟩ := h item hreached hselected
    rcases hrows row hrow with ⟨old, hin, rfl⟩ | ⟨-, -, hfind⟩
    · have holdId : old.embyId = item.id := (hg.same old).embyId.symm.trans hid.symm
      have holdPending : old.status = .pending := (hg.same old).status.symm.trans hpending
      by_cases hmoved : IsPendingOf (s.rewritten c db) old
      · exact Fleet.agrees_of_deleteAt hrt (hg.same old) (hg.new old hmoved)
      · rcases hold old hin holdId holdPending with ⟨other, hother, hotherId, hselects⟩ | hagrees
        · refine absurd ⟨holdPending, other, (hrewritten ..).2 ⟨hother, hselects, ?_⟩, ?_⟩ hmoved
          · exact List.mem_map.2 ⟨old, hin, holdId.trans hotherId.symm⟩
          · rw [hotherId, holdId]
        · exact Fleet.Agrees.congr (hg.same old) (hg.old old hmoved) hagrees
    · rw [← hid] at hfind
      exact hnew _ hfind

/-! ### A film that a rule has queued -/

/-- Two months after 1970 began, a week later, and a month later. -/
def sampleDates : Runtime := .ofTable
  [(0, "1970-01-01T00:00:00+00:00"), (5184000000000, "1970-03-02T00:00:00+00:00"),
    (5788800000000, "1970-03-09T00:00:00+00:00"), (7776000000000, "1970-04-01T00:00:00+00:00")]

theorem sampleDates_readsBack : sampleDates.ReadsBack :=
  Runtime.ofTable_readsBack (by decide) (by decide)

/-- A library that keeps what user 5 has requested out, with a rule that grants thirty days. -/
def sampleSetting (requests : RequestCache) : RescanSetting where
  f :=
    { rt := sampleDates, libraries := [{ id := "movies", serverId := some "0" }]
      libraryId := "movies", isPlex := false, itemIds := {"42"}, otherIds := ∅
      thresholds := [7, 1] }
  requests := requests
  sc :=
    { sampleScan with
      rules :=
        [{ name := "Old"
           conditionGroups :=
             [{ conditions := [{ field := .addedDaysAgo, test := .compare .gt (.num 30) }] }]
           graceDays := 30 }] }
  items := [sampleItem]
  plays := []
  iso _ := sampleDates.isoformat

/-- A clock that stands still on the second of March. -/
def sampleTime : ScanTime where
  clock :=
    { judged := fun _ => 5184000000000
      decided := fun _ => 5184000000000
      built := fun _ => 5184000000000 }

/-- What the film is queued with, when nobody has requested it and when user 5 has. -/
theorem entries_sample :
    ((((sampleSetting fun _ => none).entries sampleTime .empty).find? (·.embyId = "42")).map
      fun entry => (sampleDates.parseIsoDt entry.detectedAt, entry.seerrUserId,
        sampleDates.parseIsoDt entry.deleteAt)) =
          some (some 5184000000000, none, some 5788800000000) := by
  decide +kernel

/-- A film that the conditions have queued keeps its date, when the clock stands still. -/
theorem idempotent_iff_sample :
    (sampleSetting fun _ => none).Idempotent sampleTime .empty sampleTime := by
  refine (idempotent_iff sampleDates_readsBack).2 fun item hitem hselects => ⟨?_, ?_⟩
  · exact fun row hrow => absurd hrow List.not_mem_nil
  · intro entry hfind
    have hitem : item = sampleItem :=
      List.mem_singleton.1 (List.takeWhile_subset _ hitem)
    rw [hitem] at hfind
    have hsample := entries_sample
    rw [show sampleItem.id = "42" from rfl] at hfind
    rw [hfind, Option.map_some, Option.some.injEq, Prod.mk.injEq, Prod.mk.injEq] at hsample
    obtain ⟨hdetected, huser, hdelete⟩ := hsample
    have hweek : addDays 5184000000000 7 = some 5788800000000 := by decide
    exact (agrees_iff_of_addDays hdetected hdelete hweek).2 (.inr rfl)

/-- The film has been requested by user 5. -/
def excludedSetting : RescanSetting :=
  sampleSetting (Function.update (fun _ => none) "11" (some (sampleRequest 5).entry))

/-- The rows after a scan. -/
def sampleRows (db : Database) : List (ℤ × Status × Option Instant) :=
  db.queue.rows.map fun row => (row.id, row.status, sampleDates.parseIsoDt row.deleteAt)

/-- A film that a rule has queued is moved from the end of the month to the end of the week. -/
theorem not_idempotent_sample : ¬ excludedSetting.Idempotent sampleTime .empty sampleTime := by
  have hfirst : sampleRows (excludedSetting.after sampleTime .empty) =
      [(1, .pending, some 7776000000000)] := by
    decide +kernel
  have hsecond : sampleRows (excludedSetting.after sampleTime
      (excludedSetting.after sampleTime .empty)) = [(1, .pending, some 5788800000000)] := by
    decide +kernel
  intro h
  have hmem : (1, .pending, some 7776000000000) ∈
      sampleRows (excludedSetting.after sampleTime .empty) := by
    rw [hfirst]
    exact List.mem_singleton_self _
  obtain ⟨row, hrow, hsame⟩ := List.mem_map.1 hmem
  obtain ⟨hid, hstatus, hdate⟩ : row.id = 1 ∧ row.status = .pending ∧
      sampleDates.parseIsoDt row.deleteAt = some 7776000000000 := by
    simpa using hsame
  obtain ⟨row', hrow', -, hkept, -⟩ := h row hrow hstatus
  have hmoved : (row'.id, row'.status, sampleDates.parseIsoDt row'.deleteAt) ∈
      sampleRows (excludedSetting.after sampleTime (excludedSetting.after sampleTime .empty)) :=
    List.mem_map.2 ⟨row', hrow', rfl⟩
  rw [hsecond, List.mem_singleton] at hmoved
  have hweek : sampleDates.parseIsoDt row'.deleteAt = some 5788800000000 :=
    congrArg (fun p => p.2.2) hmoved
  have hsame := (hkept.symm.trans hweek).symm.trans hdate
  exact absurd (Option.some.inj hsame) (by decide)

end RescanSetting

end Hygie
