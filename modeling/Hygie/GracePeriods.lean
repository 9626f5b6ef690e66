/-
**The grace period of a title.**

A title stays on the queue for the grace period of its library, or for the one that an enabled rule
grants its requester there.  Four places compute it: the conditions of a library when a title is
queued, a later scan that computes the date anew, the mirroring of a title on Plex, and the request
that queues an ignored title again.  The first three read a period of zero days as seven.  The last
one takes it as it is, and does not look for a rule of the requester.

A rule says for which libraries it is: for those that it lists, or for all.  The scans look for a
rule that is stored under the identifier of the library, which is how rules were stored before they
had a list.

Main definitions:

* `GraceStore` — the libraries and the rules of the requesters;
* `GraceStore.storedRule`, `GraceStore.getSeerrGrace`, `GraceLibrary.scanGrace` — what the scans
  use;
* `SeerrUserRule.AppliesTo`, `GraceStore.rulesFor` — for whom the rules are;
* `Lasts` — the deletion of an entry is some days after its detection;
* `GraceStore.OnePeriod` — the law: one period everywhere.

Main results:

* `lasts_iff` — how long an entry lasts that is dated from one moment;
* `GraceStore.onePeriod_iff` — **exactly when there is one period everywhere**.
-/

import Hygie.Ignoring
import Hygie.Rescans

set_option relaxedAutoImplicit false
set_option autoImplicit false

namespace Hygie

/-! ### Libraries and rules -/

/-- A library, as the API accepts it; its identifier is a `uuid4`. -/
structure GraceLibrary where
  id : String
  graceDays : ℤ
  id_ne : id ≠ ""
  nonneg : 0 ≤ graceDays
  le : graceDays ≤ 3650

/-- `lib.get("grace_days") or 7`. -/
def GraceLibrary.scanGrace (lib : GraceLibrary) : ℤ :=
    if lib.graceDays = 0 then 7 else lib.graceDays

/-- A row of `seerr_user_rules`. -/
structure SeerrUserRule where
  seerrUserId : ℤ
  libraryId : String := ""
  /-- All libraries, or these. -/
  libraryIds : Option (List String) := none
  graceDays : ℤ := 30
  enabled : Bool := true
  deriving DecidableEq, Repr

/-- The rule is for a library.  A rule without a list is for all of them, or if it was stored for
one, for that one. -/
def SeerrUserRule.AppliesTo (rule : SeerrUserRule) (libraryId : String) : Prop :=
  match rule.libraryIds with
  | some ids => libraryId ∈ ids
  | none => rule.libraryId = "" ∨ rule.libraryId = libraryId

instance (rule : SeerrUserRule) (libraryId : String) : Decidable (rule.AppliesTo libraryId) := by
  unfold SeerrUserRule.AppliesTo
  split <;> infer_instance

structure GraceStore where
  libraries : List GraceLibrary
  userRules : List SeerrUserRule
  id_nodup : (libraries.map (·.id)).Nodup

namespace GraceStore

variable (st : GraceStore)

/-- What the scans find: the first enabled rule that is stored under the library. -/
def storedRule (requester : Option ℤ) (libraryId : String) : Option SeerrUserRule :=
  st.userRules.find? fun rule =>
    some rule.seerrUserId = requester && rule.libraryId = libraryId && rule.enabled

/-- `_get_seerr_grace`. -/
def getSeerrGrace (seerrUserId : Option ℤ) (libraryId : String) (defaultGrace : ℤ) : ℤ :=
  match truthyId seerrUserId with
  | none => defaultGrace
  | some uid => ((st.storedRule (some uid) libraryId).map (·.graceDays)).getD defaultGrace

/-- The grace periods of `libraries`, as `requeue_ignored` reads them. -/
def graceDays : List (String × ℤ) := st.libraries.map fun lib => (lib.id, lib.graceDays)

/-- The grace periods that a scan of a library works with. -/
def scanGrace (lib : GraceLibrary) (seerrUserId : Option ℤ) : ℤ :=
  st.getSeerrGrace seerrUserId lib.id lib.scanGrace

/-- The enabled rules for a requester in a library. -/
def rulesFor (requester : Option ℤ) (libraryId : String) : List SeerrUserRule :=
  st.userRules.filter fun rule =>
    some rule.seerrUserId = requester ∧ rule.enabled = true ∧ rule.AppliesTo libraryId

/-- The days that a requester is granted: by a rule, and by the library where there is none. -/
def Granted (lib : GraceLibrary) (requester : Option ℤ) (days : ℤ) : Prop :=
  if st.rulesFor requester lib.id = [] then days = lib.graceDays
  else ∃ rule ∈ st.rulesFor requester lib.id, rule.graceDays = days

end GraceStore

/-! ### How long an entry lasts -/

/-- The deletion of an entry is some days after its detection. -/
def Lasts (rt : Runtime) (e : QueueEntry) (days : ℤ) : Prop :=
  ∃ detected t, rt.parseIsoDt e.detectedAt = some detected ∧ addDays detected days = some t ∧
    rt.parseIsoDt e.deleteAt = some t

/-- Dates are read back, and these days after now there is one. -/
structure Runtime.Reaches (rt : Runtime) (days : ℤ) : Prop where
  readsBack : rt.ReadsBack
  minInstant_le : minInstant ≤ rt.now
  le_maxInstant : rt.now ≤ maxInstant
  isSome : (addDays rt.now days).isSome = true

theorem addDays_injective {t t' : Instant} {days days' : ℤ} (h : addDays t days = some t')
    (h' : addDays t days' = some t') : days = days' := by
  have hmoved : t + days * 86400000000 = t + days' * 86400000000 :=
    (addDays_eq_some h).1.symm.trans (addDays_eq_some h').1
  exact mul_right_cancel₀ (by decide) (add_left_cancel hmoved)

/-- **How long an entry lasts** that is dated from one moment. -/
theorem lasts_iff {rt : Runtime} {e : QueueEntry} {days days' : ℤ} (h : rt.Reaches days')
    (hdetected : e.detectedAt = rt.isoformat rt.now)
    (hdelete : e.deleteAt = rt.isoformat (rt.now + days' * 86400000000)) :
    Lasts rt e days ↔ days = days' := by
  obtain ⟨t, ht⟩ := Option.isSome_iff_exists.1 h.isSome
  have hparse : rt.parseIsoDt e.detectedAt = some rt.now := by
    rw [hdetected]
    exact h.readsBack rt.now h.minInstant_le h.le_maxInstant
  have hparse' : rt.parseIsoDt e.deleteAt = some t := by
    have hmoved : rt.now + days' * 86400000000 = t := (addDays_eq_some ht).1.symm
    rw [hdelete, hmoved]
    exact h.readsBack.addDays ht
  constructor
  · rintro ⟨detected, t', hdetected', hadd, hdelete'⟩
    obtain rfl := Option.some.inj (hparse.symm.trans hdetected')
    obtain rfl := Option.some.inj (hparse'.symm.trans hdelete')
    exact addDays_injective hadd ht
  · rintro rfl
    exact ⟨rt.now, t, hparse, ht, hparse'⟩

/-- How long a row lasts whose date has been computed anew. -/
theorem lasts_recomputedRow_iff {f : Fleet} {graceOf : Option ℤ → ℤ} {row : QueueRow}
    {lastPlayed : Option String} {playCount days : ℤ} (hrt : f.rt.ReadsBack)
    (hpending : row.status = .pending)
    (h : (f.newDeleteAt graceOf row.toQueueEntry).isSome = true) :
    Lasts f.rt (f.recomputedRow graceOf row.embyId lastPlayed playCount row).toQueueEntry days ↔
      days = graceOf row.seerrUserId := by
  obtain ⟨t, ht⟩ := Option.isSome_iff_exists.1 h
  obtain ⟨detected, hdetected, hadd⟩ := Fleet.newDeleteAt_eq_some ht
  have hread : f.rt.parseIsoDt (f.rt.isoformat t) = some t := hrt.addDays hadd
  rw [Fleet.recomputedRow, if_pos ⟨rfl, hpending⟩, ht]
  constructor
  · rintro ⟨detected', t', hdetected', hadd', hdelete⟩
    obtain rfl := Option.some.inj (hdetected.symm.trans hdetected')
    obtain rfl := Option.some.inj (hread.symm.trans hdelete)
    exact addDays_injective hadd' hadd
  · rintro rfl
    exact ⟨detected, t, hdetected, hadd, hread⟩

/-! ### What is asked -/

namespace GraceStore

/-- Wherever the period of a title in a library is computed, it is these days. -/
structure LastsEverywhere (st : GraceStore) (lib : GraceLibrary) (requester : Option ℤ) (days : ℤ) :
    Prop where
  /-- The conditions of the library put an item on the queue. -/
  firstQueueing : ∀ (rt : Runtime) (cache : RequestCache) (sc : LibraryScan) (item : ScannedItem)
    (entry : QueueEntry), rt.Reaches (st.scanGrace lib requester) → sc.lib.id = lib.id →
      sc.grace = st.scanGrace lib → evaluateItem rt cache sc item = some entry →
        entry.seerrUserId = requester → Lasts rt entry days
  /-- A later scan finds the row of an item, and there is a date these days after its detection. -/
  rescan : ∀ (f : Fleet) (row : QueueRow) (lastPlayed : Option String) (playCount : ℤ),
    f.rt.ReadsBack → row.status = .pending → row.seerrUserId = requester →
      (f.newDeleteAt (fun _ => days) row.toQueueEntry).isSome = true →
        Lasts f.rt
          (f.recomputedRow (st.scanGrace lib) row.embyId lastPlayed playCount row).toQueueEntry days
  /-- An item on Plex is put on the queue because its key is pending, and no rule is for it. -/
  plexMirror : ∀ (rt : Runtime) (rules : List ExpertRule) (item : PlexItem) (state : PlexScanState)
    (entry : QueueEntry), rt.Reaches lib.scanGrace → state.libId = lib.id →
      state.graceDays = lib.scanGrace → isMirrored rt item state = true →
        plexItemToEntry rt rules item state = some entry → entry.seerrUserId = requester →
          st.rulesFor requester lib.id = [] → Lasts rt entry days
  /-- An ignored title is put on the queue again. -/
  requeue : ∀ (rt : Runtime) (s s' : IgnoreStore) (item : IgnoredMedia) (deleteAt : String),
    rt.Reaches lib.graceDays → s.graceDays = st.graceDays → item ∈ s.ignored.rows →
      item.libraryId = lib.id → item.seerrUserId = requester →
        s.requeueIgnored rt item.id = .requeued s' deleteAt →
          ∀ row ∈ s'.queue.rows, row.embyId = item.embyId → Lasts rt row.toQueueEntry days

/-- **The law**: there is one period everywhere, and it is granted. -/
def OnePeriod (st : GraceStore) (lib : GraceLibrary) (requester : Option ℤ) : Prop :=
  ∃ days, st.Granted lib requester days ∧ st.LastsEverywhere lib requester days

/-- Where there are rules for the requester, one grants what the library does, and so does a rule
that the scans find; and if that is nothing, there are such rules. -/
structure Uniform (st : GraceStore) (lib : GraceLibrary) (requester : Option ℤ) : Prop where
  applied : st.rulesFor requester lib.id ≠ [] →
    ∃ rule ∈ st.rulesFor requester lib.id, rule.graceDays = lib.graceDays
  found : ∀ rule, requester ≠ some 0 → st.storedRule requester lib.id = some rule →
    rule.graceDays = lib.graceDays
  zero : lib.graceDays = 0 → st.rulesFor requester lib.id ≠ [] ∧ requester ≠ some 0 ∧
    (st.storedRule requester lib.id).isSome = true

variable {st : GraceStore} {lib : GraceLibrary} {requester : Option ℤ}

/-! ### What the places compute -/

theorem storedRule_none {libraryId : String} : st.storedRule none libraryId = none := by
  refine List.find?_eq_none.2 fun rule _ h => ?_
  simp at h

/-- A scan finds the stored rule of a requester, unless that is user 0. -/
theorem scanGrace_eq (h : requester ≠ some 0) : st.scanGrace lib requester =
    ((st.storedRule requester lib.id).map (·.graceDays)).getD lib.scanGrace := by
  cases requester with
  | none =>
      rw [storedRule_none]
      rfl
  | some uid =>
      have huid : truthyId (some uid) = some uid := by
        simpa [truthyId] using h
      simp only [scanGrace, getSeerrGrace, huid]

theorem scanGrace_zero : st.scanGrace lib (some 0) = lib.scanGrace := rfl

/-- Without a rule that it finds, a scan works with the period of the library. -/
theorem scanGrace_eq_scanGrace
    (h : ¬ (requester ≠ some 0 ∧ (st.storedRule requester lib.id).isSome = true)) :
    st.scanGrace lib requester = lib.scanGrace := by
  by_cases hrequester : requester = some 0
  · rw [hrequester, scanGrace_zero]
  · have hnone : st.storedRule requester lib.id = none := by
      simpa [hrequester] using h
    rw [scanGrace_eq hrequester, hnone]
    rfl

/-- The scans read every period but that of no days as it is. -/
theorem libraryScanGrace_eq_iff : lib.scanGrace = lib.graceDays ↔ lib.graceDays ≠ 0 := by
  rw [GraceLibrary.scanGrace]
  split_ifs with hzero <;> omega

/-- What the request to queue a title again reads. -/
theorem requeueGrace_eq (hlib : lib ∈ st.libraries) :
    requeueGrace st.graceDays lib.id = lib.graceDays := by
  have hmem : (lib.id, lib.graceDays) ∈ st.graceDays := List.mem_map.2 ⟨lib, hlib, rfl⟩
  obtain ⟨found, hfound⟩ : ∃ found, st.graceDays.find? (·.1 = lib.id) = some found :=
    Option.isSome_iff_exists.1 (List.find?_isSome.2 ⟨_, hmem, decide_eq_true rfl⟩)
  obtain ⟨lib', hlib', rfl⟩ := List.mem_map.1 (List.mem_of_find?_eq_some hfound)
  have hid : lib'.id = lib.id := by simpa using List.find?_some hfound
  obtain rfl := List.inj_on_of_nodup_map st.id_nodup hlib' hlib hid
  rw [requeueGrace, if_neg lib'.id_ne, hfound]
  rfl

/-- The library grants its own period where a rule does, or there is none. -/
theorem granted_graceDays_iff : st.Granted lib requester lib.graceDays ↔
    (st.rulesFor requester lib.id ≠ [] →
      ∃ rule ∈ st.rulesFor requester lib.id, rule.graceDays = lib.graceDays) := by
  rw [Granted]
  split_ifs with hnone
  · exact ⟨fun _ h => absurd hnone h, fun _ => rfl⟩
  · exact ⟨fun h _ => h, fun h => h hnone⟩

/-- The condition, about the numbers that the places work with. -/
theorem uniform_iff : st.Uniform lib requester ↔
    st.Granted lib requester lib.graceDays ∧ st.scanGrace lib requester = lib.graceDays ∧
      (st.rulesFor requester lib.id = [] → lib.scanGrace = lib.graceDays) := by
  rw [granted_graceDays_iff, libraryScanGrace_eq_iff]
  by_cases hfound : requester ≠ some 0 ∧ (st.storedRule requester lib.id).isSome = true
  · obtain ⟨rule, hrule⟩ := Option.isSome_iff_exists.1 hfound.2
    have hscan : st.scanGrace lib requester = rule.graceDays := by
      rw [scanGrace_eq hfound.1, hrule]
      rfl
    rw [hscan]
    constructor
    · intro h
      exact ⟨h.applied, h.found rule hfound.1 hrule, fun hnone hzero => (h.zero hzero).1 hnone⟩
    · rintro ⟨happlied, hsame, hnonzero⟩
      refine ⟨happlied, fun rule' _ hrule' => ?_, fun hzero => ⟨?_, hfound⟩⟩
      · obtain rfl := Option.some.inj (hrule.symm.trans hrule')
        exact hsame
      · exact fun hnone => hnonzero hnone hzero
  · rw [scanGrace_eq_scanGrace hfound, libraryScanGrace_eq_iff]
    constructor
    · intro h
      have hnonzero : lib.graceDays ≠ 0 := fun hzero => hfound (h.zero hzero).2
      exact ⟨h.applied, hnonzero, fun _ => hnonzero⟩
    · rintro ⟨happlied, hnonzero, -⟩
      refine ⟨happlied, fun rule hrequester hrule => ?_, fun hzero => absurd hzero hnonzero⟩
      exact absurd ⟨hrequester, Option.isSome_iff_exists.2 ⟨rule, hrule⟩⟩ hfound

/-! ### The places -/

/-- The dates of an entry that the conditions of a library put on the queue. -/
theorem dates_evaluateItem {rt : Runtime} {cache : RequestCache} {sc : LibraryScan}
    {item : ScannedItem} {entry : QueueEntry} (h : evaluateItem rt cache sc item = some entry) :
    entry.detectedAt = rt.isoformat rt.now ∧
      entry.deleteAt = rt.isoformat (rt.now + sc.grace entry.seerrUserId * 86400000000) := by
  simp only [evaluateItem] at h
  split at h
  · cases h
  · split_ifs at h
    obtain rfl := Option.some.inj h
    exact ⟨rfl, rfl⟩

/-- The dates of an entry that is mirrored. -/
theorem dates_mirrored {rt : Runtime} {rules : List ExpertRule} {item : PlexItem}
    {state : PlexScanState} {entry : QueueEntry} (hmirrored : isMirrored rt item state = true)
    (h : plexItemToEntry rt rules item state = some entry) :
    entry.detectedAt = rt.isoformat rt.now ∧
      entry.deleteAt = rt.isoformat (rt.now + state.graceDays * 86400000000) := by
  simp only [isMirrored, Bool.and_eq_true, Bool.not_eq_true', decide_eq_true_eq] at hmirrored
  obtain ⟨⟨hskipped, hkey⟩, hqueued⟩ := hmirrored
  have hgrace : graceForItem rt rules item (item.key rt) state = (true, state.graceDays) :=
    if_pos ⟨hkey, hqueued⟩
  simp only [plexItemToEntry, hskipped, hgrace, Bool.false_eq_true, if_false, if_true,
    Option.some.injEq] at h
  subst h
  exact ⟨rfl, rfl⟩

/-- The dates of a row that has been queued again. -/
theorem dates_requeued {rt : Runtime} {s s' : IgnoreStore} {item : IgnoredMedia} {deleteAt : String}
    {row : QueueRow} (hitem : item ∈ s.ignored.rows)
    (h : s.requeueIgnored rt item.id = .requeued s' deleteAt) (hrow : row ∈ s'.queue.rows)
    (hid : row.embyId = item.embyId) :
    row.detectedAt = rt.isoformat rt.now ∧ row.deleteAt =
      rt.isoformat (rt.now + requeueGrace s.graceDays item.libraryId * 86400000000) := by
  obtain ⟨found, hfound⟩ : ∃ found, s.ignored.rows.find? (·.id = item.id) = some found :=
    Option.isSome_iff_exists.1 (List.find?_isSome.2 ⟨item, hitem, decide_eq_true rfl⟩)
  have hfoundId : found.id = item.id := by simpa using List.find?_some hfound
  obtain rfl := List.inj_on_of_nodup_map s.ignored.id_nodup (List.mem_of_find?_eq_some hfound) hitem
    hfoundId
  simp only [IgnoreStore.requeueIgnored, hfound] at h
  split_ifs at h with hqueued
  obtain ⟨rfl, -⟩ := RequeueResult.requeued.inj h
  rcases List.mem_append.1 hrow with hold | hnew
  · exact absurd (List.mem_map.2 ⟨row, hold, hid⟩) hqueued
  · rw [List.mem_singleton.1 hnew]
    exact ⟨rfl, rfl⟩

/-- The law follows from what the places work with. -/
theorem Uniform.onePeriod (h : st.Uniform lib requester) (hlib : lib ∈ st.libraries) :
    st.OnePeriod lib requester := by
  obtain ⟨hgranted, hscan, hmirror⟩ := uniform_iff.1 h
  refine ⟨lib.graceDays, hgranted, ?_, ?_, ?_, ?_⟩
  · intro rt cache sc item entry hrt _ hgrace heval hrequester
    obtain ⟨hdetected, hdelete⟩ := dates_evaluateItem heval
    rw [hgrace, hrequester] at hdelete
    exact (lasts_iff hrt hdetected hdelete).2 hscan.symm
  · intro f row lastPlayed playCount hrt hpending hrequester hdate
    have hsame : st.scanGrace lib row.seerrUserId = lib.graceDays := by
      rw [hrequester, hscan]
    have hdate' : (f.newDeleteAt (st.scanGrace lib) row.toQueueEntry).isSome = true := by
      rwa [Fleet.newDeleteAt, hsame]
    exact (lasts_recomputedRow_iff hrt hpending hdate').2 hsame.symm
  · intro rt rules item state entry hrt _ hgrace hmirrored hentry _ hnone
    obtain ⟨hdetected, hdelete⟩ := dates_mirrored hmirrored hentry
    rw [hgrace] at hdelete
    exact (lasts_iff hrt hdetected hdelete).2 (hmirror hnone).symm
  · intro rt s s' item deleteAt hrt hdays hitem hlibraryId _ hrequeue row hrow hid
    obtain ⟨hdetected, hdelete⟩ := dates_requeued hitem hrequeue hrow hid
    rw [hdays, hlibraryId, requeueGrace_eq hlib] at hdelete
    exact (lasts_iff hrt hdetected hdelete).2 rfl

/-! ### A title of the requester -/

/-- The beginning of 1970, and dates as strokes. -/
def bareClock : Runtime := .ofTable []

theorem bareClock_readsBack : bareClock.ReadsBack :=
  Runtime.ofTable_readsBack List.nodup_nil (List.forall_mem_nil _)

theorem reaches_bareClock {days : ℤ} (hnonneg : 0 ≤ days) (hle : days ≤ 3650) :
    bareClock.Reaches days where
  readsBack := bareClock_readsBack
  minInstant_le := by decide
  le_maxInstant := by decide
  isSome := by
    have hsmall : ¬ 999999999 < |days| := by
      rw [abs_of_nonneg hnonneg]
      omega
    have hrange : minInstant ≤ 0 + days * 86400000000 ∧ 0 + days * 86400000000 ≤ maxInstant := by
      unfold minInstant maxInstant
      omega
    have hadd : addDays bareClock.now days = some (0 + days * 86400000000) := by
      rw [addDays, if_neg hsmall]
      exact if_pos hrange
    rw [hadd]
    rfl

/-- A server with nothing on it. -/
def bareFleet : Fleet where
  rt := bareClock
  libraries := []
  libraryId := ""
  isPlex := false
  itemIds := ∅
  otherIds := ∅
  thresholds := []

/-- A pending row that a requester waits for, with no whole days between its dates. -/
def requestedRow (requester : Option ℤ) : QueueRow where
  id := 1
  embyId := "7"
  title := "A"
  mediaType := "Movie"
  libraryId := ""
  libraryName := ""
  filePath := "/films/A.mkv"
  detectedAt := bareClock.isoformat bareClock.now
  deleteAt := "|"
  status := .pending
  seerrUserId := requester

/-- A title of a library that has been ignored. -/
def requestedTitle (libraryId : String) (requester : Option ℤ) : IgnoredMedia where
  id := 1
  embyId := "7"
  title := "A"
  mediaType := "Movie"
  libraryId := libraryId
  tmdbId := ""
  seerrUserId := requester
  ignoredAt := ""

/-- A store with one ignored title. -/
def onlyIgnored (graceDays : List (String × ℤ)) (item : IgnoredMedia) : IgnoreStore where
  queue := Database.empty.queue
  ignored :=
    { rows := [item]
      nextId := item.id + 1
      id_nodup := List.nodup_singleton _
      embyId_nodup := List.nodup_singleton _
      lt_nextId := List.forall_mem_singleton.2 (Int.lt_succ _) }
  graceDays := graceDays

/-- A film on Plex, whose key is pending somewhere. -/
def mirroredFilm : PlexItem where
  plexId := "p"
  title := "A"
  mediaType := "movie"
  tmdbId := "1"

/-- The state of a scan on Plex that mirrors the film of a requester. -/
def mirroringState (lib : GraceLibrary) (requester : Option ℤ) : PlexScanState where
  queuedIds := []
  ignoredIds := []
  ignoredTmdb := []
  queuedTmdb := [mirroredFilm.key bareClock]
  graceDays := lib.scanGrace
  libId := lib.id
  libName := ""
  seerrCache := fun _ => some ⟨none, requester, "", ""⟩

theorem isMirrored_mirroredFilm :
    isMirrored bareClock mirroredFilm (mirroringState lib requester) = true := by
  have hskipped : isSkipped bareClock mirroredFilm (mirroringState lib requester) = false := by
    simp only [isSkipped, mirroringState, List.not_mem_nil, decide_false, Bool.and_false,
      Bool.or_false]
    rfl
  have hkey : mirroredFilm.key bareClock ≠ "" := by decide
  simp only [isMirrored, hskipped, Bool.not_false, Bool.true_and, Bool.and_eq_true,
    decide_eq_true_eq]
  exact ⟨hkey, List.mem_singleton_self _⟩

/-- The film is put on the queue for its requester. -/
theorem plexItemToEntry_mirroredFilm (lib : GraceLibrary) (requester : Option ℤ) : ∃ entry,
    plexItemToEntry bareClock [] mirroredFilm (mirroringState lib requester) = some entry ∧
      entry.seerrUserId = requester := by
  have hmirrored : isMirrored bareClock mirroredFilm (mirroringState lib requester) = true :=
    isMirrored_mirroredFilm
  simp only [isMirrored, Bool.and_eq_true, Bool.not_eq_true', decide_eq_true_eq] at hmirrored
  obtain ⟨⟨hskipped, hkey⟩, hqueued⟩ := hmirrored
  have hgrace : graceForItem bareClock [] mirroredFilm (mirroredFilm.key bareClock)
      (mirroringState lib requester) = (true, lib.scanGrace) := if_pos ⟨hkey, hqueued⟩
  refine ⟨buildPlexEntry bareClock mirroredFilm (mirroringState lib requester) lib.scanGrace,
    ?_, rfl⟩
  simp only [plexItemToEntry, hskipped, hgrace, Bool.false_eq_true, if_false, if_true]

theorem reaches_graceDays : bareClock.Reaches lib.graceDays := reaches_bareClock lib.nonneg lib.le

theorem reaches_scanGrace : bareClock.Reaches lib.scanGrace := by
  have hnonneg := lib.nonneg
  have hle := lib.le
  refine reaches_bareClock ?_ ?_ <;> rw [GraceLibrary.scanGrace] <;> split_ifs <;> omega

/-- The request to queue an ignored title again works with the period of the library. -/
theorem LastsEverywhere.graceDays_eq {days : ℤ} (h : st.LastsEverywhere lib requester days)
    (hlib : lib ∈ st.libraries) : days = lib.graceDays := by
  have hitem := List.mem_singleton_self (requestedTitle lib.id requester)
  obtain ⟨s', deleteAt, row, hrequeue, hrow, hid⟩ : ∃ s' deleteAt row,
      (onlyIgnored st.graceDays (requestedTitle lib.id requester)).requeueIgnored bareClock 1 =
        .requeued s' deleteAt ∧ row ∈ s'.queue.rows ∧ row.embyId = "7" :=
    ⟨_, _, (Database.empty.queue).newRow (requeuedEntry bareClock
      (requestedTitle lib.id requester) (requeueGrace st.graceDays lib.id)), rfl,
      List.mem_singleton_self _, rfl⟩
  have hlasts := h.requeue bareClock
    (onlyIgnored st.graceDays (requestedTitle lib.id requester)) s'
    (requestedTitle lib.id requester) deleteAt reaches_graceDays rfl hitem rfl rfl hrequeue row hrow
    hid
  obtain ⟨hdetected, hdelete⟩ :=
    @dates_requeued bareClock _ s' (requestedTitle lib.id requester) _ row hitem hrequeue hrow hid
  have hgrace : requeueGrace
      (onlyIgnored st.graceDays (requestedTitle lib.id requester)).graceDays
      (requestedTitle lib.id requester).libraryId = lib.graceDays := requeueGrace_eq hlib
  rw [hgrace] at hdelete
  exact (lasts_iff reaches_graceDays hdetected hdelete).1 hlasts

/-- So does a later scan. -/
theorem LastsEverywhere.scanGrace_eq {days : ℤ} (h : st.LastsEverywhere lib requester days)
    (hlib : lib ∈ st.libraries) : st.scanGrace lib requester = days := by
  have hnow : bareClock.parseIsoDt (bareClock.isoformat bareClock.now) = some bareClock.now :=
    bareClock_readsBack _ (by decide) (by decide)
  have hnew : ∀ graceOf, bareFleet.newDeleteAt graceOf (requestedRow requester).toQueueEntry =
      addDays bareClock.now (graceOf requester) := fun graceOf =>
    congrArg (·.bind fun detected => addDays detected (graceOf requester)) hnow
  have hreaches : bareClock.Reaches lib.graceDays := reaches_graceDays
  have hlasts := h.rescan bareFleet (requestedRow requester) none 0 bareClock_readsBack rfl rfl (by
    rw [hnew, h.graceDays_eq hlib]
    exact hreaches.isSome)
  by_cases hdate : (bareFleet.newDeleteAt (st.scanGrace lib)
      (requestedRow requester).toQueueEntry).isSome = true
  · exact ((lasts_recomputedRow_iff bareClock_readsBack rfl hdate).1 hlasts).symm
  · -- the row keeps its dates, which are a microsecond apart
    have hnone : bareFleet.newDeleteAt (st.scanGrace lib) (requestedRow requester).toQueueEntry =
        none := by simpa using hdate
    rw [Fleet.recomputedRow, if_pos ⟨rfl, rfl⟩, hnone] at hlasts
    obtain ⟨detected, t, hdetected, hadd, hdelete⟩ := hlasts
    obtain rfl := Option.some.inj (hnow.symm.trans hdetected)
    have hstroke : bareClock.parseIsoDt "|" = some 1 := by decide
    obtain rfl := Option.some.inj (hstroke.symm.trans hdelete)
    have hmoved : (1 : ℤ) = 0 + days * 86400000000 := (addDays_eq_some hadd).1
    omega

/-- The scan that mirrors works with what it reads as the period of the library. -/
theorem LastsEverywhere.mirror_eq {days : ℤ} (h : st.LastsEverywhere lib requester days)
    (hnone : st.rulesFor requester lib.id = []) : days = lib.scanGrace := by
  obtain ⟨entry, hentry, hrequester⟩ := plexItemToEntry_mirroredFilm lib requester
  have hmirrored : isMirrored bareClock mirroredFilm (mirroringState lib requester) = true :=
    isMirrored_mirroredFilm
  obtain ⟨hdetected, hdelete⟩ := dates_mirrored hmirrored hentry
  have hlasts := h.plexMirror bareClock [] mirroredFilm (mirroringState lib requester) entry
    reaches_scanGrace rfl rfl hmirrored hentry hrequester hnone
  exact (lasts_iff reaches_scanGrace hdetected hdelete).1 hlasts

/-- What the places work with follows from the law. -/
theorem OnePeriod.uniform (h : st.OnePeriod lib requester) (hlib : lib ∈ st.libraries) :
    st.Uniform lib requester := by
  obtain ⟨days, hgranted, h⟩ := h
  obtain rfl := h.graceDays_eq hlib
  exact uniform_iff.2 ⟨hgranted, h.scanGrace_eq hlib, fun hnone => (h.mirror_eq hnone).symm⟩

/-- **Exactly when there is one period everywhere**: where rules are for the requester, one of them
grants what the library does, and so does the rule that the scans find; and if that is nothing,
there are such rules. -/
theorem onePeriod_iff (hlib : lib ∈ st.libraries) :
    st.OnePeriod lib requester ↔ st.Uniform lib requester :=
  ⟨fun h => h.uniform hlib, fun h => h.onePeriod hlib⟩

/-- A library with a grace period. -/
def plain (days : ℤ) (hnonneg : 0 ≤ days) (hle : days ≤ 3650) : GraceLibrary where
  id := "films"
  graceDays := days
  id_ne := by decide
  nonneg := hnonneg
  le := hle

/-- A store with one library. -/
def plainStore (lib : GraceLibrary) (userRules : List SeerrUserRule) : GraceStore where
  libraries := [lib]
  userRules := userRules
  id_nodup := List.nodup_singleton _

/-- Two weeks are two weeks everywhere for user 5, to whom a rule grants them too; a rule for other
libraries and one that is not enabled change nothing. -/
theorem onePeriod_iff_fortnight :
    (plainStore (plain 14 (by decide) (by decide))
      [{ seerrUserId := 5, libraryIds := some ["series"], graceDays := 90 },
        { seerrUserId := 5, graceDays := 60, enabled := false },
        { seerrUserId := 5, libraryId := "films", graceDays := 14 }]).OnePeriod
          (plain 14 (by decide) (by decide))
      (some 5) :=
  (onePeriod_iff (List.mem_singleton_self _)).2
    { applied := fun _ =>
        ⟨{ seerrUserId := 5, libraryId := "films", graceDays := 14 }, by decide, rfl⟩
      found := fun _ _ h => congrArg (·.graceDays) (Option.some.inj h).symm
      zero := fun h => absurd h (by decide) }

/-- A rule of ninety days for all libraries is granted nowhere, and no days at all are a week for
the scans. -/
theorem not_onePeriod_ninety :
    ¬ (plainStore (plain 14 (by decide) (by decide))
      [{ seerrUserId := 5, graceDays := 90 }]).OnePeriod (plain 14 (by decide) (by decide))
      (some 5) ∧
    ¬ (plainStore (plain 0 (by decide) (by decide)) []).OnePeriod (plain 0 (by decide) (by decide))
      none := by
  constructor
  · intro h
    have hrule := (h.uniform (List.mem_singleton_self _)).applied (by decide)
    revert hrule
    decide
  · intro h
    exact ((h.uniform (List.mem_singleton_self _)).zero rfl).1 rfl

end GraceStore

end Hygie
