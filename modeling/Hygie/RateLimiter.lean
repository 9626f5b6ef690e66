/-
**The rate limiter.**

An attempt records its time under its key and is blocked when too many are recorded in the window;
who succeeds releases the attempt.  In memory an attempt is one critical section, on SQLite one
transaction, and on MariaDB three statements of their own, between which other attempts and releases
come.  The argument is the same for all three: an attempt counts after it has recorded itself, so
the one that counts last sees all those that were let through and not released.

A time is a rational number; that of `time.time()` is a multiple of a power of two, and the window
can be subtracted exactly.  Two keys are one when the backend compares them as equal.

Main definitions:

* `LimiterStore`, `memoryRateLimit`, `memoryReleaseAttempt` — what is recorded, and the critical
  sections;
* `LimiterState.step` — the steps of attempts and releases on each backend;
* `LimiterState.InWindow` — all times lie within one window;
* `LimiterState.BurstSafe`, `LimiterState.ReleasesOne` — the laws.

Main results:

* `LimiterState.invariant_step` — what one step preserves;
* `LimiterState.burstSafe_of_run` — **at most `rateLimitMax` attempts of a key are let through and
  not released**, and a release removes exactly one of its key and time.
-/

import Hygie.GuardedRuns

set_option relaxedAutoImplicit false
set_option autoImplicit false

namespace Hygie

/-! ### What is recorded -/

/-- `RATE_LIMIT_WINDOW`. -/
def rateLimitWindow : ℚ := 300

/-- `RATE_LIMIT_MAX`. -/
def rateLimitMax : ℕ := 5

inductive Backend
  | memory | sqlite | mariadb
  deriving DecidableEq, Repr

variable {Key : Type} [DecidableEq Key]

/-- `_rate_buckets` and `_rate_call_counter` of the process, and the table `rate_limit`. -/
structure LimiterStore (Key : Type) where
  buckets : Key → Option (List ℚ)
  callCounter : ℕ
  rows : List (Key × ℚ)

/-- A bucket is empty, or its last time is out of the window. -/
def isStaleBucket (cutoff : ℚ) (bucket : List ℚ) : Bool :=
  match bucket.getLast? with
  | none => true
  | some ts => ts ≤ cutoff

/-- `_memory_rate_limit`: the store afterwards, and whether the attempt is blocked. -/
def memoryRateLimit (store : LimiterStore Key) (key : Key) (now cutoff : ℚ) :
    LimiterStore Key × Bool :=
  let bucket := ((store.buckets key).getD []).filter (cutoff < ·) ++ [now]
  let buckets := Function.update store.buckets key (some bucket)
  let callCounter := store.callCounter + 1
  ({ store with
      buckets :=
        if callCounter % 500 = 0 then
          fun k => (buckets k).filter fun bucket => !isStaleBucket cutoff bucket
        else buckets
      callCounter := callCounter },
    rateLimitMax < bucket.length)

/-- `_memory_release_attempt`. -/
def memoryReleaseAttempt (store : LimiterStore Key) (key : Key) (token : ℚ) : LimiterStore Key :=
  match store.buckets key with
  | none => store
  | some bucket =>
      { store with buckets := Function.update store.buckets key (some (bucket.erase token)) }

/-- `DELETE FROM rate_limit WHERE ts < ?`. -/
def purgeRows (cutoff : ℚ) (rows : List (Key × ℚ)) : List (Key × ℚ) :=
  rows.filter fun row => cutoff ≤ row.2

/-- `SELECT COUNT(*) FROM rate_limit WHERE key = ? AND ts > ?`. -/
def countRows (key : Key) (cutoff : ℚ) (rows : List (Key × ℚ)) : ℕ :=
  rows.countP fun row => row.1 = key && cutoff < row.2

/-- The times that are recorded for a key. -/
def LimiterStore.timestamps (store : LimiterStore Key) : Backend → Key → List ℚ
  | .memory, key => (store.buckets key).getD []
  | _, key => (store.rows.filter (·.1 = key)).map (·.2)

/-! ### The attempts -/

/-- How far an attempt has come; on MariaDB it has purged the table, and then inserted its row,
before it counts. -/
inductive AttemptStage
  | begun | purged | inserted
  | reported (blocked : Bool)
  | released
  deriving DecidableEq, Repr

/-- A call of `rate_limit_attempt`, with the time that it has read. -/
structure Attempt (Key : Type) where
  key : Key
  now : ℚ
  stage : AttemptStage

/-- The attempts, in the order in which they have begun. -/
structure LimiterState (Key : Type) where
  store : LimiterStore Key
  attempts : List (Attempt Key)

inductive LimiterAction (Key : Type)
  | begin (key : Key) (now : ℚ)
  /-- The critical section, the transaction, or the next statement of an attempt. -/
  | advance (i : ℕ)
  | release (i : ℕ)

namespace LimiterState

variable (b : Backend)

def setAttempt (s : LimiterState Key) (i : ℕ) (a : Attempt Key) (stage : AttemptStage)
    (store : LimiterStore Key) : LimiterState Key where
  store := store
  attempts := s.attempts.set i { a with stage := stage }

/-- A step of `rate_limit_attempt`. -/
def advance (s : LimiterState Key) (i : ℕ) (a : Attempt Key) : Option (LimiterState Key) :=
  let cutoff := a.now - rateLimitWindow
  match b, a.stage with
  | .memory, .begun =>
      let (store, blocked) := memoryRateLimit s.store a.key a.now cutoff
      some (s.setAttempt i a (.reported blocked) store)
  | .sqlite, .begun =>
      let rows := purgeRows cutoff s.store.rows ++ [(a.key, a.now)]
      some (s.setAttempt i a (.reported (rateLimitMax < countRows a.key cutoff rows))
        { s.store with rows := rows })
  | .mariadb, .begun =>
      some (s.setAttempt i a .purged { s.store with rows := purgeRows cutoff s.store.rows })
  | .mariadb, .purged =>
      some (s.setAttempt i a .inserted { s.store with rows := s.store.rows ++ [(a.key, a.now)] })
  | .mariadb, .inserted =>
      some (s.setAttempt i a
        (.reported (rateLimitMax < countRows a.key cutoff s.store.rows)) s.store)
  | _, _ => none

/-- `release_attempt`: one entry with the key and the time is removed. -/
def releaseStore (store : LimiterStore Key) (key : Key) (token : ℚ) : LimiterStore Key :=
  match b with
  | .memory => memoryReleaseAttempt store key token
  | _ => { store with rows := store.rows.erase (key, token) }

/-- The step function; an attempt is released once, and after its call has returned. -/
def step (s : LimiterState Key) : LimiterAction Key → Option (LimiterState Key)
  | .begin key now =>
      some { s with attempts := s.attempts ++ [{ key := key, now := now, stage := .begun }] }
  | .advance i =>
      match s.attempts[i]? with
      | some a => s.advance b i a
      | none => none
  | .release i =>
      match s.attempts[i]? with
      | some ⟨key, now, .reported blocked⟩ =>
          some (s.setAttempt i ⟨key, now, .reported blocked⟩ .released
            (releaseStore b s.store key now))
      | _ => none

/-- Nothing is recorded yet. -/
def start : LimiterState Key where
  store :=
    { buckets := fun _ => none
      callCounter := 0
      rows := [] }
  attempts := []

/-! ### The laws -/

/-- An attempt begins less than a window before or after each other one. -/
def InWindow (s : LimiterState Key) : LimiterAction Key → Prop
  | .begin _ now => ∀ a ∈ s.attempts, |now - a.now| < rateLimitWindow
  | _ => True

/-- An attempt of the key is let through, and not released. -/
def passes (key : Key) (a : Attempt Key) : Bool := a.key = key && a.stage = .reported false

/-- Of each key, at most `RATE_LIMIT_MAX` attempts are let through and not released. -/
def BurstSafe (s : LimiterState Key) : Prop :=
  ∀ key, s.attempts.countP (passes key) ≤ rateLimitMax

/-- From one state to another, one entry with the key and the time of an attempt is removed, and
nothing else. -/
def ReleasesOne (s t : LimiterState Key) (a : Attempt Key) : Prop :=
  ∀ key ts, (t.store.timestamps b key).count ts + (if key = a.key ∧ ts = a.now then 1 else 0) =
    (s.store.timestamps b key).count ts

/-! ### What the statements record -/

section Store

variable {store : LimiterStore Key} {rows : List (Key × ℚ)} {key k : Key} {now cutoff ts : ℚ}

/-- The entries of a key and a time in the table. -/
theorem count_timestamps_rows :
    ((rows.filter (·.1 = k)).map (·.2)).count ts = rows.count (k, ts) := by
  induction rows with
  | nil => rfl
  | cons row rows ih =>
      obtain ⟨key, now⟩ := row
      rw [List.filter_cons, List.count_cons]
      by_cases hkey : key = k
      · subst hkey
        simp only [decide_true, if_true, List.map_cons, List.count_cons, ih]
        simp
      · simp only [hkey, decide_false, Bool.false_eq_true, if_false, ih]
        simp [hkey]

omit [DecidableEq Key] in
/-- In the window nothing is purged. -/
theorem purgeRows_eq (hrows : ∀ row ∈ rows, cutoff < row.2) : purgeRows cutoff rows = rows :=
  List.filter_eq_self.2 fun row hrow => decide_eq_true (hrows row hrow).le

/-- In the window the count is that of all entries of the key. -/
theorem countRows_eq (hrows : ∀ row ∈ rows, cutoff < row.2) :
    countRows key cutoff rows = ((rows.filter (·.1 = key)).map (·.2)).length := by
  rw [List.length_map, ← List.countP_eq_length_filter, countRows]
  refine List.countP_congr fun row hrow => ?_
  simp [hrows row hrow]

/-- The entries of a key with another row. -/
theorem timestamps_append :
    ((rows ++ [(key, now)]).filter (·.1 = k)).map (·.2) =
      if k = key then (rows.filter (·.1 = k)).map (·.2) ++ [now]
      else (rows.filter (·.1 = k)).map (·.2) := by
  rw [List.filter_append, List.map_append]
  by_cases hk : k = key
  · simp [hk]
  · simp [hk, Ne.symm hk]

/-- In the window the critical section adds an entry, and its count is that of all entries of the
key. -/
theorem memoryRateLimit_eq (hwindow : ∀ k, ∀ ts ∈ store.timestamps .memory k, cutoff < ts)
    (hnow : cutoff < now) :
    (∀ k, (memoryRateLimit store key now cutoff).1.timestamps .memory k =
      if k = key then store.timestamps .memory k ++ [now] else store.timestamps .memory k) ∧
    (memoryRateLimit store key now cutoff).2 =
      decide (rateLimitMax < (store.timestamps .memory key).length + 1) := by
  have hkept : ((store.buckets key).getD []).filter (cutoff < ·) = (store.buckets key).getD [] :=
    List.filter_eq_self.2 fun ts hts => decide_eq_true (hwindow key ts hts)
  refine ⟨fun k => ?_, ?_⟩
  · simp only [memoryRateLimit, LimiterStore.timestamps, hkept]
    -- a bucket that goes is empty
    have hgone : ∀ bucket : Option (List ℚ), (∀ ts ∈ bucket.getD [], cutoff < ts) →
        (bucket.filter fun bucket => !isStaleBucket cutoff bucket).getD [] = bucket.getD [] := by
      intro bucket hbucket
      cases bucket with
      | none => rfl
      | some bucket =>
          cases hlast : bucket.getLast? with
          | none =>
              obtain rfl := List.getLast?_eq_none_iff.1 hlast
              rfl
          | some last =>
              have hlt : cutoff < last := hbucket last (List.mem_of_getLast? hlast)
              have hstale : isStaleBucket cutoff bucket = false := by
                simp only [isStaleBucket, hlast, decide_eq_false_iff_not, not_le]
                exact hlt
              simp [Option.filter, hstale]
    have hbuckets : ∀ k, (Function.update store.buckets key
        (some ((store.buckets key).getD [] ++ [now])) k).getD [] =
          if k = key then (store.buckets k).getD [] ++ [now] else (store.buckets k).getD [] := by
      intro k
      rw [Function.update_apply]
      split_ifs with hk
      · rw [hk]
        rfl
      · rfl
    have hlive : ∀ k, ∀ ts ∈ (Function.update store.buckets key
        (some ((store.buckets key).getD [] ++ [now])) k).getD [], cutoff < ts := by
      intro k ts hts
      rw [hbuckets] at hts
      split_ifs at hts with hk
      · rcases List.mem_append.1 hts with hts | hts
        · exact hwindow k ts hts
        · rw [List.mem_singleton.1 hts]
          exact hnow
      · exact hwindow k ts hts
    rw [← hbuckets]
    split_ifs
    · exact hgone _ (hlive k)
    · rfl
  · simp only [memoryRateLimit, hkept, LimiterStore.timestamps, List.length_append,
      List.length_singleton]
    rfl

/-- A release removes one entry, if there is one. -/
theorem count_releaseStore (hmem : ts ∈ store.timestamps b key) {other : ℚ} :
    ((releaseStore b store key ts).timestamps b k).count other +
      (if k = key ∧ other = ts then 1 else 0) = (store.timestamps b k).count other := by
  -- one entry less for the key and the time of the attempt
  have herase : ∀ l : List ℚ, ts ∈ l → (l.erase ts).count other + (if other = ts then 1 else 0) =
      l.count other := by
    intro l hl
    by_cases hother : other = ts
    · subst hother
      have hpos := List.count_pos_iff.2 hl
      rw [List.count_erase_self, if_pos rfl]
      omega
    · rw [List.count_erase_of_ne hother, if_neg hother, add_zero]
  cases b with
  | memory =>
      simp only [LimiterStore.timestamps] at hmem ⊢
      cases hbucket : store.buckets key with
      | none => simp [hbucket] at hmem
      | some bucket =>
          simp only [hbucket, Option.getD_some] at hmem
          simp only [releaseStore, memoryReleaseAttempt, hbucket, Function.update_apply]
          by_cases hk : k = key
          · subst hk
            simpa [hbucket] using herase bucket hmem
          · simp [hk]
  | sqlite | mariadb =>
      have hrow : (key, ts) ∈ store.rows := by
        obtain ⟨row, hrow, rfl⟩ := List.mem_map.1 hmem
        obtain ⟨hrow, hkey⟩ := List.mem_filter.1 hrow
        rwa [← of_decide_eq_true hkey]
      have hpos := List.count_pos_iff.2 hrow
      simp only [LimiterStore.timestamps, releaseStore, count_timestamps_rows]
      by_cases hsame : k = key ∧ other = ts
      · obtain ⟨rfl, rfl⟩ := hsame
        rw [List.count_erase_self, if_pos ⟨rfl, rfl⟩]
        omega
      · have hne : (k, other) ≠ (key, ts) := fun heq => hsame (Prod.mk.inj heq)
        rw [List.count_erase_of_ne hne, if_neg hsame, add_zero]

end Store

/-! ### Entries and attempts -/

/-- An attempt has an entry: it has recorded itself, and is not released. -/
def isRecorded (a : Attempt Key) : Bool :=
  match a.stage with
  | .inserted | .reported _ => true
  | _ => false

/-- An attempt has an entry with the key and the time. -/
def records (key : Key) (ts : ℚ) (a : Attempt Key) : Bool :=
  isRecorded a && a.key = key && a.now = ts

/-- What holds in every run: the attempts are in one window, and the entries are those of the
attempts that are recorded and not released. -/
structure Invariant (s : LimiterState Key) : Prop where
  window : ∀ a ∈ s.attempts, ∀ a' ∈ s.attempts, |a.now - a'.now| < rateLimitWindow
  entries : ∀ key ts, (s.store.timestamps b key).count ts = s.attempts.countP (records key ts)
  safe : s.BurstSafe

section Steps

variable {b : Backend} {s t : LimiterState Key} {a : Attempt Key} {i : ℕ} {key : Key} {ts : ℚ}
  {stage : AttemptStage} {store : LimiterStore Key}

/-- A key has as many entries as attempts that are recorded. -/
theorem length_timestamps {l : List ℚ} {attempts : List (Attempt Key)}
    (h : ∀ ts, l.count ts = attempts.countP (records key ts)) :
    l.length = attempts.countP fun a => isRecorded a && a.key = key := by
  have hperm : l.Perm ((attempts.filter fun a => isRecorded a && a.key = key).map (·.now)) := by
    refine List.perm_iff_count.2 fun ts => ?_
    rw [h ts, List.count, List.countP_map, List.countP_filter]
    refine List.countP_congr fun a _ => ?_
    simp only [records, Function.comp_apply, Bool.and_eq_true, decide_eq_true_eq, beq_iff_eq]
    tauto
  rw [hperm.length_eq, List.length_map, ← List.countP_eq_length_filter]

omit [DecidableEq Key] in
/-- An attempt that comes to another stage counts with the new one in place of the old one. -/
theorem countP_set {p : Attempt Key → Bool} {a' : Attempt Key} (hget : s.attempts[i]? = some a) :
    (s.attempts.set i a').countP p + (if p a then 1 else 0) =
      s.attempts.countP p + (if p a' then 1 else 0) := by
  obtain ⟨hlt, rfl⟩ := List.getElem?_eq_some_iff.1 hget
  rw [List.countP_set hlt]
  by_cases ha : p s.attempts[i] = true
  · have hpos : 0 < s.attempts.countP p := List.countP_pos_iff.2 ⟨_, List.getElem_mem hlt, ha⟩
    rw [if_pos ha]
    omega
  · rw [if_neg ha]
    omega

/-- What an attempt reads is in its window. -/
theorem Invariant.live (h : s.Invariant b) (hmem : a ∈ s.attempts)
    (hts : ts ∈ s.store.timestamps b key) : a.now - rateLimitWindow < ts := by
  have hpos := List.count_pos_iff.2 hts
  rw [h.entries] at hpos
  obtain ⟨other, hother, hrecords⟩ := List.countP_pos_iff.1 hpos
  have heq : other.now = ts := by
    simp only [records, Bool.and_eq_true, decide_eq_true_eq] at hrecords
    exact hrecords.2
  have hlt := (abs_lt.1 (h.window a hmem other hother)).2
  rw [heq] at hlt
  linarith

/-- A step of an attempt keeps the invariant, if its entry comes and goes with the stage, and if no
more than the limit are recorded when it is let through. -/
theorem Invariant.setAttempt (h : s.Invariant b) (hget : s.attempts[i]? = some a)
    (hentries : ∀ key ts, (store.timestamps b key).count ts + (if records key ts a then 1 else 0) =
      (s.store.timestamps b key).count ts +
        (if records key ts { a with stage := stage } then 1 else 0))
    (hpass : stage = .reported false → (store.timestamps b a.key).length ≤ rateLimitMax) :
    (s.setAttempt i a stage store).Invariant b := by
  have hmem := List.mem_of_getElem? hget
  have hafter : ∀ key ts, (store.timestamps b key).count ts =
      (s.attempts.set i { a with stage := stage }).countP (records key ts) := by
    intro key ts
    have hset : (s.attempts.set i { a with stage := stage }).countP (records key ts) + _ = _ :=
      countP_set hget
    have hsame := hentries key ts
    rw [h.entries] at hsame
    omega
  refine ⟨?_, hafter, ?_⟩
  · -- the times are the same
    have hback : ∀ x ∈ s.attempts.set i { a with stage := stage }, ∃ y ∈ s.attempts,
        y.now = x.now := by
      intro x hx
      rcases List.mem_or_eq_of_mem_set hx with hx | rfl
      · exact ⟨x, hx, rfl⟩
      · exact ⟨a, hmem, rfl⟩
    intro x hx y hy
    obtain ⟨x', hx', hxnow⟩ := hback x hx
    obtain ⟨y', hy', hynow⟩ := hback y hy
    rw [← hxnow, ← hynow]
    exact h.window x' hx' y' hy'
  · intro key
    have hset : (s.attempts.set i { a with stage := stage }).countP (passes key) + _ = _ :=
      countP_set hget
    by_cases hpasses : passes key { a with stage := stage } = true
    · -- those that were let through have an entry
      simp only [passes, Bool.and_eq_true, decide_eq_true_eq] at hpasses
      obtain ⟨rfl, hstage⟩ := hpasses
      have hle : (s.attempts.set i { a with stage := stage }).countP (passes a.key) ≤
          (s.attempts.set i { a with stage := stage }).countP
            fun x => isRecorded x && x.key = a.key := by
        refine List.countP_mono_left fun x _ hx => ?_
        simp only [passes, Bool.and_eq_true, decide_eq_true_eq] at hx
        simp [isRecorded, hx.1, hx.2]
      rw [← length_timestamps (hafter a.key)] at hle
      exact hle.trans (hpass hstage)
    · have hsafe := h.safe key
      rw [if_neg hpasses] at hset
      show (s.attempts.set i { a with stage := stage }).countP (passes key) ≤ rateLimitMax
      omega

/-- An attempt adds its entry and is counted with it. -/
theorem records_of_recorded (hrecorded : isRecorded a = true) :
    (if records key ts a then 1 else 0) = if key = a.key ∧ ts = a.now then 1 else 0 := by
  simp only [records, hrecorded, Bool.true_and, Bool.and_eq_true, decide_eq_true_eq]
  exact if_congr ⟨fun h => ⟨h.1.symm, h.2.symm⟩, fun h => ⟨h.1.symm, h.2.symm⟩⟩ rfl rfl

theorem records_of_not_recorded (hrecorded : isRecorded a = false) :
    (if records key ts a then 1 else 0) = 0 := by
  simp [records, hrecorded]

/-- In the window an attempt changes the table by its own entry alone. -/
theorem Invariant.live_rows (h : s.Invariant b) (hb : b ≠ .memory) (hmem : a ∈ s.attempts) :
    ∀ row ∈ s.store.rows, a.now - rateLimitWindow < row.2 := by
  intro row hrow
  have hts : row.2 ∈ s.store.timestamps b row.1 := by
    cases b with
    | memory => exact absurd rfl hb
    | sqlite | mariadb => exact List.mem_map.2 ⟨row, List.mem_filter.2 ⟨hrow, by simp⟩, rfl⟩
  exact h.live hmem hts

theorem Invariant.advance (h : s.Invariant b) (hget : s.attempts[i]? = some a)
    (hstep : s.advance b i a = some t) : t.Invariant b := by
  have hmem := List.mem_of_getElem? hget
  have hnow : a.now - rateLimitWindow < a.now := by
    simp [rateLimitWindow]
  -- one entry more
  have hadd : ∀ (l l' : List ℚ) key ts, l' = (if key = a.key then l ++ [a.now] else l) →
      l'.count ts = l.count ts + if key = a.key ∧ ts = a.now then 1 else 0 := by
    intro l l' key ts hl
    rw [hl]
    by_cases hkey : key = a.key
    · by_cases hts : ts = a.now
      · simp [hkey, hts]
      · rw [if_pos hkey, if_neg (fun hand => hts hand.2), List.count_append, List.count_singleton]
        simp [Ne.symm hts]
    · rw [if_neg hkey, if_neg (fun hand => hkey hand.1), add_zero]
  obtain ⟨key, now, stage⟩ := a
  cases b with
  | memory =>
      cases stage with
      | begun =>
          obtain rfl := Option.some.inj hstep
          obtain ⟨hts, hblocked⟩ := memoryRateLimit_eq (fun _ _ hts => h.live hmem hts) hnow
          refine h.setAttempt hget (fun k ts => ?_) fun hpass => ?_
          · rw [records_of_not_recorded rfl, records_of_recorded rfl, add_zero]
            exact hadd _ _ k ts (hts k)
          · have hle : (memoryRateLimit s.store key now (now - rateLimitWindow)).2 = false :=
              AttemptStage.reported.inj hpass
            rw [hblocked, decide_eq_false_iff_not, not_lt] at hle
            have hlen : ((memoryRateLimit s.store key now (now - rateLimitWindow)).1.timestamps
                .memory key).length = (s.store.timestamps .memory key).length + 1 := by
              rw [hts key, if_pos rfl, List.length_append, List.length_singleton]
            exact hlen.le.trans hle
      | _ => cases hstep
  | sqlite =>
      cases stage with
      | begun =>
          obtain rfl := Option.some.inj hstep
          have hrows := h.live_rows nofun hmem
          have hpurge := purgeRows_eq hrows
          refine h.setAttempt hget (fun k ts => ?_) fun hpass => ?_
          · rw [records_of_not_recorded rfl, records_of_recorded rfl, add_zero]
            refine hadd _ _ k ts ?_
            simp only [LimiterStore.timestamps, hpurge, timestamps_append]
          · have hle := AttemptStage.reported.inj hpass
            have hnew : ∀ row ∈ s.store.rows ++ [(key, now)], now - rateLimitWindow < row.2 := by
              intro row hrow
              rcases List.mem_append.1 hrow with hrow | hrow
              · exact hrows row hrow
              · rw [List.mem_singleton.1 hrow]
                exact hnow
            simp only [hpurge] at hle ⊢
            rw [countRows_eq hnew, decide_eq_false_iff_not, not_lt] at hle
            exact hle
      | _ => cases hstep
  | mariadb =>
      have hrows := h.live_rows nofun hmem
      cases stage with
      | begun =>
          obtain rfl := Option.some.inj hstep
          refine h.setAttempt hget (fun k ts => ?_) nofun
          rw [records_of_not_recorded rfl, records_of_not_recorded rfl]
          simp only [purgeRows_eq hrows]
      | purged =>
          obtain rfl := Option.some.inj hstep
          refine h.setAttempt hget (fun k ts => ?_) nofun
          rw [records_of_not_recorded rfl, records_of_recorded rfl, add_zero]
          refine hadd _ _ k ts ?_
          simp only [LimiterStore.timestamps, timestamps_append]
      | inserted =>
          obtain rfl := Option.some.inj hstep
          refine h.setAttempt hget (fun k ts => ?_) fun hpass => ?_
          · rw [records_of_recorded rfl, records_of_recorded rfl]
          · -- the attempt that counts last sees all that were let through
            have hle := AttemptStage.reported.inj hpass
            rw [countRows_eq hrows, decide_eq_false_iff_not, not_lt] at hle
            exact hle
      | _ => cases hstep

/-- A release removes the entry of its attempt, and nothing else. -/
theorem Invariant.release (h : s.Invariant b) (hget : s.attempts[i]? = some a)
    (hstep : s.step b (.release i) = some t) : t.Invariant b ∧ s.ReleasesOne b t a := by
  obtain ⟨key, now, stage⟩ := a
  simp only [step, hget] at hstep
  cases stage with
  | reported blocked =>
      obtain rfl := Option.some.inj hstep
      have hmem : now ∈ s.store.timestamps b key := by
        rw [← List.count_pos_iff, h.entries]
        refine List.countP_pos_iff.2 ⟨_, List.mem_of_getElem? hget, ?_⟩
        simp [records, isRecorded]
      have hone : s.ReleasesOne b (s.setAttempt i ⟨key, now, .reported blocked⟩ .released
          (releaseStore b s.store key now)) ⟨key, now, .reported blocked⟩ :=
        fun k ts => count_releaseStore b hmem
      refine ⟨h.setAttempt hget (fun k ts => ?_) nofun, hone⟩
      rw [records_of_recorded rfl, records_of_not_recorded rfl, add_zero]
      exact hone k ts
  | _ => cases hstep

/-- **What one step preserves.** -/
theorem invariant_step {action : LimiterAction Key} (h : s.Invariant b) (hok : s.InWindow action)
    (hstep : s.step b action = some t) : t.Invariant b := by
  cases action with
  | begin key now =>
      obtain rfl := Option.some.inj hstep
      have hself : |now - now| < rateLimitWindow := by
        simp [rateLimitWindow]
      refine ⟨fun x hx y hy => ?_, fun k ts => ?_, fun k => ?_⟩
      · rcases List.mem_append.1 hx with hx | hx <;> rcases List.mem_append.1 hy with hy | hy
        · exact h.window x hx y hy
        · rw [List.mem_singleton.1 hy, abs_sub_comm]
          exact hok x hx
        · rw [List.mem_singleton.1 hx]
          exact hok y hy
        · rw [List.mem_singleton.1 hx, List.mem_singleton.1 hy]
          exact hself
      · rw [List.countP_append, List.countP_singleton, h.entries]
        simp [records, isRecorded]
      · rw [List.countP_append, List.countP_singleton]
        simpa [passes] using h.safe k
  | advance i =>
      simp only [step] at hstep
      split at hstep
      · next a hget => exact h.advance hget hstep
      · cases hstep
  | release i =>
      cases hget : s.attempts[i]? with
      | none => simp [step, hget] at hstep
      | some a => exact (h.release hget hstep).1

/-- **At most `rateLimitMax` attempts of a key are let through and not released**, at every moment
and on each backend, and each release removes exactly one entry, with the key and the time of its
attempt. -/
theorem burstSafe_of_run {actions : List (LimiterAction Key)}
    (hrun : GuardedRun (step b) InWindow start actions s) :
    s.BurstSafe ∧ ∀ i a t, s.attempts[i]? = some a → s.step b (.release i) = some t →
      s.ReleasesOne b t a := by
  have hstart : (start : LimiterState Key).Invariant b := by
    refine ⟨fun _ ha => (nomatch ha), fun key ts => ?_, fun key => ?_⟩
    · cases b <;> simp [start, LimiterStore.timestamps]
    · simp [start]
  have hinv : s.Invariant b :=
    hrun.invariant hstart fun _ _ _ h hok hstep => invariant_step h hok hstep
  exact ⟨hinv.safe, fun i a t hget hstep => (hinv.release hget hstep).2⟩

/-- Two attempts of one address at one time, whose statements alternate; the first is released. -/
theorem burstSafe_of_run_login :
    ∃ s : LimiterState String, GuardedRun (step .mariadb) InWindow start
      [.begin "login:10.0.0.7" 0, .begin "login:10.0.0.7" 0, .advance 0, .advance 1, .advance 1,
        .advance 0, .advance 0, .advance 1, .release 0] s ∧ s.BurstSafe := by
  have hrun : ∃ s : LimiterState String, GuardedRun (step .mariadb) InWindow start
      [.begin "login:10.0.0.7" 0, .begin "login:10.0.0.7" 0, .advance 0, .advance 1, .advance 1,
        .advance 0, .advance 0, .advance 1, .release 0] s := by
    refine ⟨_, .cons (fun _ h => nomatch h) rfl (.cons (fun a ha => ?_) rfl (.cons trivial rfl
      (.cons trivial rfl (.cons trivial rfl (.cons trivial rfl (.cons trivial rfl (.cons trivial rfl
        (.cons trivial rfl .nil))))))))⟩
    rw [List.mem_singleton.1 ha]
    simp [rateLimitWindow]
  obtain ⟨s, hrun⟩ := hrun
  exact ⟨s, hrun, (burstSafe_of_run hrun).1⟩

end Steps

end LimiterState

end Hygie
