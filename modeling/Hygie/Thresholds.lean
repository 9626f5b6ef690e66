/-
**The thresholds of the Discord notifications.**

The setting `discord_notif_thresholds` is a text of days separated by commas.  A request that
changes it is refused when a token is no positive number; how large the numbers are is not looked
at.  A job goes through them from the largest to the smallest and notifies, for each, the pending
rows whose deletion is that many days away; an insertion marks the thresholds that the new row meets
already.  Both add the days to the current time, which Python refuses past the year 9999, and the
exception ends the whole loop.

The other digits that `int` reads are no digits for the expression that a token has to match.

Main definitions:

* `parseThresholds`, `resolveThresholds` — what a text means;
* `checkThresholds` — what a request may store;
* `cutoff` — the current time and some days, where a `datetime` can be that late;
* `sendPendingNotifications`, `preMarkApplicableThresholds` — the two loops;
* `ThresholdsWork` — the law: no threshold is skipped.

Main results:

* `thresholdsWork_iff` — **exactly which accepted texts work**.
-/

import Hygie.PlexMirror
import Hygie.PyText
import Hygie.QueueTable
import Mathlib.Data.List.Sort

set_option relaxedAutoImplicit false
set_option autoImplicit false

namespace Hygie

open PyText

/-! ### Texts -/

/-- `sys.int_info.default_max_str_digits`. -/
def maxStrDigits : ℕ := 4300

/-- `int` of a text of digits; nothing where it raises `ValueError`, as there are too many. -/
def intOfDigits (token : String) : Option ℕ :=
  if maxStrDigits < token.length then none
  else some (token.toList.foldl (fun n c => 10 * n + (c.toNat - '0'.toNat)) 0)

/-- `_THRESHOLD_TOKEN_RE.fullmatch`. -/
def isThresholdToken (token : String) : Bool :=
  token ≠ "" && token.toList.all Char.isDigit

/-- The tokens of a text that are not empty. -/
def thresholdTokens (raw : String) : List String :=
  ((raw.toList.splitOn ',').map fun token => strip (String.ofList token)).filter (· ≠ "")

/-- The loop over the tokens: the days, and the tokens that are no positive numbers; nothing where
`int` raises. -/
def readTokens : List String → Option (List ℕ × List String)
  | [] => some ([], [])
  | token :: rest =>
      if isThresholdToken token then
        match intOfDigits token, readTokens rest with
        | some days, some (valid, invalid) =>
            some (if 0 < days then (days :: valid, invalid) else (valid, token :: invalid))
        | _, _ => none
      else (readTokens rest).map fun read => (read.1, token :: read.2)

/-- `sorted(days, reverse=True)` of a set. -/
def sortedDescending (days : List ℕ) : List ℕ := days.dedup.insertionSort (· ≥ ·)

/-- `parse_thresholds`, of a text or `None`; nothing where it raises. -/
def parseThresholds (raw : Option String) : Option (List ℕ × List String) :=
  (readTokens (thresholdTokens (raw.getD ""))).map fun read => (sortedDescending read.1, read.2)

def defaultNotifThresholds : List ℕ := [7, 1]

/-- `resolve_thresholds`. -/
def resolveThresholds (raw : Option String) : Option (List ℕ) :=
  (parseThresholds raw).map fun read =>
    if read.1 = [] ∧ (raw.map strip) ≠ some "" then defaultNotifThresholds else read.1

example : resolveThresholds (some "7, 1,,30, 7") = some [30, 7, 1] := by decide

/-- What becomes of a request that is refused. -/
inductive ThresholdError
  /-- The `ValueError` of `int`, which nothing catches. -/
  | valueError
  | http (statusCode : ℕ) (detail : String)
  deriving DecidableEq, Repr

/-- `update_settings`, for a value of `discord_notif_thresholds`; a value that passes is stored as
it is. -/
def checkThresholds (raw : String) : Except ThresholdError Unit :=
  match parseThresholds (some raw) with
  | none => .error .valueError
  | some (days, invalid) =>
      if invalid ≠ [] then
        .error (.http 422
          ("discord_notif_thresholds: seuils invalides : " ++ ", ".intercalate invalid
            ++ " (entiers positifs séparés par des virgules, ex. 7,1)"))
      else if strip raw ≠ "" ∧ days = [] then
        .error (.http 422
          ("discord_notif_thresholds: aucun seuil valide "
            ++ "(entiers positifs séparés par des virgules, ex. 7,1)"))
      else .ok ()

/-! ### Dates -/

/-- `datetime.max`, the end of the year 9999. -/
def maxInstant : ℤ := 253402300799999999

/-- The beginning of the year 9000. -/
def year9000 : ℤ := 221845392000000000

/-- `now + timedelta(days=days, hours=1)`; nothing where a step of it raises `OverflowError`. -/
def cutoff (now : Instant) (days : ℕ) : Option Instant :=
  if 999999999 < days then none
  else
    let t : ℤ := now + (days : ℤ) * 86400000000 + 3600000000
    if t ≤ maxInstant then some t else none

/-- `threshold_key`. -/
def thresholdKey (days : ℕ) : String := s!"{days}d"

/-! ### The two loops -/

/-- The queue, and the rows of `notifications`: an item and a threshold. -/
structure Database where
  queue : QueueTable
  notifications : List (ℤ × String)

namespace Database

/-- Nothing is queued yet. -/
def empty : Database where
  queue :=
    { rows := []
      nextId := 1
      id_nodup := List.nodup_nil
      embyId_nodup := List.nodup_nil
      lt_nextId := by simp }
  notifications := []

/-- The pending rows that are deleted until a moment and are not marked yet for a threshold. -/
def toNotify (rt : Runtime) (db : Database) (moment : Instant) (days : ℕ) : List QueueRow :=
  let candidates := db.queue.rows.filter fun row =>
    row.status = .pending && row.deleteAt ≤ rt.isoformat moment
  candidates.filter fun row => (row.id, thresholdKey days) ∉ db.notifications

theorem nodup_toNotify {rt : Runtime} {db : Database} {moment : Instant} {days : ℕ} :
    ((db.toNotify rt moment days).map (·.id)).Nodup :=
  db.queue.id_nodup.sublist ((List.filter_sublist.trans List.filter_sublist).map _)

/-- `INSERT OR IGNORE` of several items and thresholds. -/
def record (db : Database) (marks : List (ℤ × String)) : Database :=
  { db with notifications := marks.foldl (fun ns m => ns.insert m) db.notifications }

end Database

section Loops

variable (rt : Runtime)

/-- What the loop of `_send_pending_notifications` does for one threshold; `send` is what
`send_notification` answers. -/
def notifyThreshold (send : List QueueRow → String → Bool) (moment : Instant) (db : Database)
    (days : ℕ) : Database :=
  let rows := db.toNotify rt moment days
  if rows ≠ [] && send rows (thresholdKey days) then
    db.record (rows.map fun row => (row.id, thresholdKey days))
  else db

/-- `_send_pending_notifications`, with the time at which it comes to each threshold: the tables
afterwards, and the thresholds that it has processed. -/
def sendPendingNotifications (send : List QueueRow → String → Bool) (clock : ℕ → Instant) :
    Database → List ℕ → Database × List ℕ
  | db, [] => (db, [])
  | db, days :: rest =>
      match cutoff (clock days) days with
      | none => (db, [])
      | some moment =>
          let after := sendPendingNotifications send clock
            (notifyThreshold rt send moment db days) rest
          (after.1, days :: after.2)

/-- The thresholds that a date meets; nothing where the time of one cannot be computed. -/
def metThresholds (now date : Instant) : List ℕ → Option (List ℕ)
  | [] => some []
  | days :: rest => do
      let moment ← cutoff now days
      let met ← metThresholds now date rest
      some (if date ≤ moment then days :: met else met)

/-- `_pre_mark_applicable_thresholds`; an exception leaves the tables as they are. -/
def preMarkApplicableThresholds (thresholds : List ℕ) (db : Database) (embyId deleteAt : String) :
    Database :=
  match rt.parseIsoDt deleteAt, db.queue.rows.find? (·.embyId = embyId) with
  | some date, some row =>
      match metThresholds rt.now date thresholds with
      | some met => db.record (met.map fun days => (row.id, thresholdKey days))
      | none => db
  | _, _ => db

end Loops

/-! ### The law -/

/-- The thresholds of a text are read, none is skipped at any time before the year 9000, and a new
row gets the mark of each that it meets. -/
structure ThresholdsWork (rt : Runtime) (raw : String) : Prop where
  parses : (parseThresholds (some raw)).isSome
  processed : ∀ thresholds, resolveThresholds (some raw) = some thresholds →
    ∀ clock, (∀ days, clock days < year9000) → ∀ send db,
      (sendPendingNotifications rt send clock db thresholds).2 = thresholds
  recorded : ∀ thresholds, resolveThresholds (some raw) = some thresholds →
    ∀ now < year9000, ∀ (db : Database), ∀ row ∈ db.queue.rows, ∀ date,
      rt.parseIsoDt row.deleteAt = some date → ∀ days ∈ thresholds,
        date ≤ now + (days : ℤ) * 86400000000 + 3600000000 →
          (row.id, thresholdKey days) ∈ (preMarkApplicableThresholds { rt with now := now }
            thresholds db row.embyId row.deleteAt).notifications

section Laws

variable {rt : Runtime} {db : Database} {now date : ℤ} {days : ℕ} {thresholds : List ℕ}

theorem mem_record {marks : List (ℤ × String)} {m : ℤ × String} :
    m ∈ (db.record marks).notifications ↔ m ∈ marks ∨ m ∈ db.notifications := by
  obtain ⟨queue, ns⟩ := db
  simp only [Database.record]
  induction marks generalizing ns with
  | nil => simp
  | cons first marks ih =>
      rw [List.foldl_cons, ih, List.mem_insert_iff, List.mem_cons]
      tauto

/-- The marks of an insertion are marks of the row with that identifier. -/
theorem preMark_cases {embyId deleteAt : String} :
    preMarkApplicableThresholds rt thresholds db embyId deleteAt = db ∨
      ∃ row ∈ db.queue.rows, row.embyId = embyId ∧ ∃ met : List ℕ,
        preMarkApplicableThresholds rt thresholds db embyId deleteAt =
          db.record (met.map fun days => (row.id, thresholdKey days)) := by
  simp only [preMarkApplicableThresholds]
  split
  · next date row _ hrow =>
      split
      · next met _ =>
          have hembyId : row.embyId = embyId := by simpa using List.find?_some hrow
          exact .inr ⟨row, List.mem_of_find?_eq_some hrow, hembyId, met, rfl⟩
      · exact .inl rfl
  · exact .inl rfl

theorem queue_preMark {embyId deleteAt : String} :
    (preMarkApplicableThresholds rt thresholds db embyId deleteAt).queue = db.queue := by
  rcases preMark_cases with heq | ⟨row, -, -, met, heq⟩ <;> rw [heq]
  rfl

/-- A time before the year 9000 and at most that many days are no overflow. -/
theorem cutoff_of_le (hnow : now < year9000) (hdays : days ≤ 365241) :
    cutoff now days = some (now + (days : ℤ) * 86400000000 + 3600000000) := by
  have hsum : now + (days : ℤ) * 86400000000 + 3600000000 ≤ maxInstant := by
    simp only [year9000, maxInstant] at *
    omega
  rw [cutoff, if_neg (by omega), if_pos hsum]

/-- More days overflow in the end. -/
theorem cutoff_of_lt (hdays : 365241 < days) : cutoff (year9000 - 1) days = none := by
  have hsum : ¬ year9000 - 1 + (days : ℤ) * 86400000000 + 3600000000 ≤ maxInstant := by
    simp only [year9000, maxInstant]
    omega
  rw [cutoff]
  by_cases hrange : 999999999 < days
  · rw [if_pos hrange]
  · rw [if_neg hrange, if_neg hsum]

/-- The loop comes to every threshold exactly when each of its times can be computed. -/
theorem processed_eq_iff {send : List QueueRow → String → Bool} {clock : ℕ → Instant} :
    (sendPendingNotifications rt send clock db thresholds).2 = thresholds ↔
      ∀ days ∈ thresholds, (cutoff (clock days) days).isSome := by
  induction thresholds generalizing db with
  | nil => simp [sendPendingNotifications]
  | cons days rest ih =>
      rw [sendPendingNotifications, List.forall_mem_cons]
      cases hcutoff : cutoff (clock days) days with
      | none => simp
      | some moment => simpa using ih

/-- What a cutoff is, where it can be computed. -/
theorem cutoff_eq {moment : ℤ} (h : cutoff now days = some moment) :
    moment = now + (days : ℤ) * 86400000000 + 3600000000 := by
  simp only [cutoff] at h
  split_ifs at h
  exact (Option.some.inj h).symm

theorem isSome_metThresholds :
    (metThresholds now date thresholds).isSome ↔ ∀ days ∈ thresholds, (cutoff now days).isSome := by
  induction thresholds with
  | nil => simp [metThresholds]
  | cons days rest ih =>
      rw [List.forall_mem_cons, ← ih, metThresholds]
      cases cutoff now days <;> cases metThresholds now date rest <;> simp

/-- The thresholds that a date meets, where all times can be computed. -/
theorem mem_metThresholds {met : List ℕ} (h : metThresholds now date thresholds = some met) :
    days ∈ met ↔ days ∈ thresholds ∧ date ≤ now + (days : ℤ) * 86400000000 + 3600000000 := by
  induction thresholds generalizing met with
  | nil =>
      obtain rfl := Option.some.inj h
      simp
  | cons first rest ih =>
      rw [metThresholds] at h
      obtain ⟨moment, hmoment, h⟩ := Option.bind_eq_some_iff.1 h
      obtain ⟨met', hmet', h⟩ := Option.bind_eq_some_iff.1 h
      obtain rfl := Option.some.inj h
      have hmem := ih hmet'
      obtain rfl := cutoff_eq hmoment
      rw [List.mem_cons]
      split_ifs with hdate
      · rw [List.mem_cons, hmem]
        constructor
        · rintro (rfl | ⟨hdays, hle⟩)
          · exact ⟨.inl rfl, hdate⟩
          · exact ⟨.inr hdays, hle⟩
        · rintro ⟨rfl | hdays, hle⟩
          · exact .inl rfl
          · exact .inr ⟨hdays, hle⟩
      · rw [hmem]
        constructor
        · rintro ⟨hdays, hle⟩
          exact ⟨.inr hdays, hle⟩
        · rintro ⟨rfl | hdays, hle⟩
          · exact absurd hle hdate
          · exact ⟨hdays, hle⟩

/-- The row that an insertion finds by its identifier. -/
theorem find?_embyId {row : QueueRow} (hrow : row ∈ db.queue.rows) :
    db.queue.rows.find? (·.embyId = row.embyId) = some row := by
  obtain ⟨found, hfound⟩ : ∃ found, db.queue.rows.find? (·.embyId = row.embyId) = some found :=
    Option.isSome_iff_exists.1 (List.find?_isSome.2 ⟨row, hrow, by simp⟩)
  have hembyId : found.embyId = row.embyId := by simpa using List.find?_some hfound
  rw [hfound, db.queue.eq_of_embyId (List.mem_of_find?_eq_some hfound) hrow hembyId]

/-- Where all times can be computed, the row gets the mark of each threshold that it meets. -/
theorem mem_preMark {row : QueueRow} {deleteAt : String} (hrow : row ∈ db.queue.rows)
    (hdate : rt.parseIsoDt deleteAt = some date)
    (hsome : (metThresholds rt.now date thresholds).isSome) (hdays : days ∈ thresholds)
    (hmet : date ≤ rt.now + (days : ℤ) * 86400000000 + 3600000000) :
    (row.id, thresholdKey days) ∈
      (preMarkApplicableThresholds rt thresholds db row.embyId deleteAt).notifications := by
  obtain ⟨met, hlist⟩ := Option.isSome_iff_exists.1 hsome
  simp only [preMarkApplicableThresholds, hdate, find?_embyId hrow, hlist]
  exact mem_record.2 (.inl (List.mem_map.2 ⟨days, (mem_metThresholds hlist).2 ⟨hdays, hmet⟩, rfl⟩))

/-- A mark stays. -/
theorem mem_preMark_of_mem {embyId deleteAt : String} {m : ℤ × String} (h : m ∈ db.notifications) :
    m ∈ (preMarkApplicableThresholds rt thresholds db embyId deleteAt).notifications := by
  rcases preMark_cases with heq | ⟨row, -, -, met, heq⟩
  · rw [heq]
    exact h
  · rw [heq]
    exact mem_record.2 (.inr h)

/-- What is accepted has been read. -/
theorem parses_of_check {raw : String} (h : checkThresholds raw = .ok ()) :
    (parseThresholds (some raw)).isSome := by
  rw [checkThresholds] at h
  split at h
  · cases h
  · next heq => rw [heq]; rfl

/-- **Exactly which accepted texts work**: those whose thresholds do not reach past the year 9999.
-/
theorem thresholdsWork_iff {raw : String} (haccepted : checkThresholds raw = .ok ()) :
    ThresholdsWork rt raw ↔
      ∀ thresholds, resolveThresholds (some raw) = some thresholds → ∀ days ∈ thresholds,
        days ≤ 365241 := by
  constructor
  · intro h thresholds hthresholds days hdays
    by_contra hlarge
    -- at the end of the year 8999 the loop stops at this threshold
    have hprocessed := h.processed thresholds hthresholds (fun _ => year9000 - 1) (fun _ => by simp)
      (fun _ _ => true) .empty
    have hsome := processed_eq_iff.1 hprocessed days hdays
    rw [cutoff_of_lt (by omega)] at hsome
    cases hsome
  · intro hall
    refine ⟨parses_of_check haccepted, ?_, ?_⟩
    · intro thresholds hthresholds clock hclock send db
      refine processed_eq_iff.2 fun days hdays => ?_
      rw [cutoff_of_le (hclock days) (hall thresholds hthresholds days hdays)]
      rfl
    · intro thresholds hthresholds now hnow db row hrow date hdate days hdays hmet
      have hsome : (metThresholds now date thresholds).isSome := by
        refine isSome_metThresholds.2 fun days hdays => ?_
        rw [cutoff_of_le hnow (hall thresholds hthresholds days hdays)]
        rfl
      exact mem_preMark hrow hdate hsome hdays hmet

/-- The default setting. -/
theorem thresholdsWork_default : ThresholdsWork {} "7,1" := by
  refine (thresholdsWork_iff (by rfl)).2 fun thresholds hthresholds => ?_
  have hread : resolveThresholds (some "7,1") = some [7, 1] := by decide
  obtain rfl := Option.some.inj (hread.symm.trans hthresholds)
  decide

/-- At the beginning of 2026, three million days are too many, and the seven days after them are not
looked at. -/
theorem not_thresholdsWork_large :
    ¬ ∀ (rt : Runtime) (raw : String), checkThresholds raw = .ok () → ThresholdsWork rt raw := by
  intro hclaim
  have hwork := hclaim {} "3000000,7" (by rfl)
  have hread : resolveThresholds (some "3000000,7") = some [3000000, 7] := by decide
  have hprocessed := hwork.processed [3000000, 7] hread (fun _ => 1767225600000000)
    (fun _ => by decide) (fun _ _ => true) .empty
  have hnone : (sendPendingNotifications {} (fun _ _ => true) (fun _ => 1767225600000000)
      Database.empty [3000000, 7]).2 = [] := by decide
  rw [hnone] at hprocessed
  cases hprocessed

end Laws

end Hygie
