/-
**The settings and their cache.**

A worker reads its settings from a cache of the whole table, which a read refreshes when it is empty
or older than half a minute, and which a write invalidates by setting its time to zero.  The refresh
holds a lock, but a write does not take it: a refresh that has read the rows before a write commits
may come to its end after the write has invalidated the cache, and then the rows from before the
write count as fresh for half a minute. Zero is also no time that is always out of date: the clock
counts from the start of the machine.

A call is cut at its awaits.  The rows of a `SELECT` are those that are committed when it runs;
between the new cache and its time lies the `await` that gives the connection back.

Main definitions:

* `Fernet`, `encryptValue`, `decryptValue` — what is encrypted, and `readSetting`, a value of the
  cache;
* `SettingsState.step` — the steps of `get_setting` and `set_setting`, and how they fail;
* `SettingsState.ReadYourWrites` — the law for a key, `SettingsState.Settled` — the condition.

Main results:

* `decryptValue_encryptValue` — what is encrypted is read back;
* `SettingsState.readYourWrites_of_run` — **the law holds along the runs that meet the condition**;
* `SettingsState.not_readYourWrites_lateRefresh` — a refresh that ends late brings the old value
  back.
-/

import Hygie.GuardedRuns
import Hygie.PyText

set_option relaxedAutoImplicit false
set_option autoImplicit false

namespace Hygie

open PyText

/-! ### Encryption -/

/-- The cipher of the key that is loaded; what it encrypts depends on the time and on random bytes,
and it decrypts what it has encrypted. -/
structure Fernet where
  encrypt : ℕ → String → String
  decrypt : String → Option String
  decrypt_encrypt : ∀ nonce value, decrypt (encrypt nonce value) = some value

def sensitiveKeys : List String :=
  ["emby_api_key", "radarr_api_key", "sonarr_api_key", "seerr_api_key", "qbit_password",
    "qbit_proxy_url", "discord_webhook", "discord_webhook_alerts", "media_servers",
    "radarr_servers", "sonarr_servers", "plex_tv_token", "plex_webhook_secret"]

def encPrefix : String := "enc:"

variable (fernet : Option Fernet)

/-- `_encrypt_value`. -/
def encryptValue (nonce : ℕ) (value : String) : String :=
  match fernet with
  | some f => if value = "" then value else encPrefix ++ f.encrypt nonce value
  | none => value

/-- `_decrypt_value`. -/
def decryptValue (value : String) : String :=
  if value = "" || !startsWith value encPrefix then value
  else
    match fernet with
    | some f => (f.decrypt (String.ofList (value.toList.drop 4))).getD value
    | none => value

/-- What `set_setting` stores. -/
def storedSetting (nonce : ℕ) (key value : String) : String :=
  if key ∈ sensitiveKeys then encryptValue fernet nonce value else value

/-- What `get_setting` makes of the rows in the cache. -/
def readSetting (rows : List (String × String)) (key : String) : String :=
  let raw := (rows.lookup key).getD ""
  if key ∈ sensitiveKeys then decryptValue fernet raw else raw

/-- The table with one row for the key. -/
def upsertSetting (rows : List (String × String)) (key stored : String) : List (String × String) :=
  (key, stored) :: rows.filter fun row => row.1 != key

/-- What is encrypted is read back. -/
theorem decryptValue_encryptValue (nonce : ℕ) (value : String) :
    decryptValue fernet (encryptValue fernet nonce value) = value := by
  cases fernet with
  | none =>
      unfold decryptValue
      split_ifs <;> rfl
  | some f =>
      by_cases hempty : value = ""
      · simp [encryptValue, decryptValue, hempty]
      · have hprefix : startsWith (encPrefix ++ f.encrypt nonce value) encPrefix = true :=
          startsWith_iff.2 ⟨_, rfl⟩
        have hdrop : String.ofList ((encPrefix ++ f.encrypt nonce value).toList.drop 4) =
            f.encrypt nonce value := by
          have hfour : encPrefix.toList.length = 4 := rfl
          rw [String.toList_append, ← hfour, List.drop_left, String.ofList_toList]
        have hne : encPrefix ++ f.encrypt nonce value ≠ "" := by
          intro h
          have hlen := congrArg (fun s => s.toList.length) h
          simp [encPrefix] at hlen
        simp only [encryptValue, decryptValue, hempty, hprefix, hdrop, hne, f.decrypt_encrypt,
          if_false,
          decide_false, Bool.not_true, Bool.or_self, Bool.false_eq_true, Option.getD_some]

theorem lookup_upsertSetting (rows : List (String × String)) (key k stored : String) :
    (upsertSetting rows key stored).lookup k = if k = key then some stored else rows.lookup k := by
  unfold upsertSetting
  by_cases hk : k = key
  · simp [hk]
  · have hne : (k == key) = false := by simpa using hk
    rw [if_neg hk, List.lookup_cons, hne]
    induction rows with
    | nil => rfl
    | cons row rows ih =>
        obtain ⟨k', stored'⟩ := row
        by_cases hrow : k' = key
        · subst hrow
          simpa [List.lookup_cons, hne] using ih
        · rw [List.filter_cons, if_pos (by simpa using hrow), List.lookup_cons, List.lookup_cons]
          cases k == k' with
          | true => rfl
          | false => exact ih

/-- What is stored is read back. -/
theorem readSetting_upsertSetting (rows : List (String × String)) (nonce : ℕ) (key value : String) :
    readSetting fernet (upsertSetting rows key (storedSetting fernet nonce key value)) key =
      value := by
  simp only [readSetting, storedSetting, lookup_upsertSetting, if_true, Option.getD_some]
  split_ifs
  · exact decryptValue_encryptValue fernet nonce value
  · rfl

/-! ### The calls -/

inductive ReadStage
  /-- For the lock. -/
  | waiting
  | refreshing
  | returned (value : String)
  | failed
  deriving DecidableEq, Repr

def ReadStage.inFlight : ReadStage → Bool
  | .waiting | .refreshing => true
  | _ => false

/-- A call of `get_setting`; `promise` is the value that it owes: that of a write of the key that
has returned, when no other write of the key has started since. -/
structure SettingRead where
  key : String
  promise : Option String
  stage : ReadStage
  deriving DecidableEq, Repr

inductive WriteStage
  | begun | committed | returned | failed
  deriving DecidableEq, Repr

def WriteStage.inFlight : WriteStage → Bool
  | .begun | .committed => true
  | _ => false

/-- A call of `set_setting`. -/
structure SettingWrite where
  key : String
  value : String
  nonce : ℕ
  stage : WriteStage
  deriving DecidableEq, Repr

inductive RefreshStage
  | opened
  | fetched (rows : List (String × String))
  /-- The cache is the new one, its time is not. -/
  | assigned
  deriving DecidableEq, Repr

/-- The read that holds the lock, and the time that it has read. -/
structure Refresh where
  reader : ℕ
  now : ℚ
  stage : RefreshStage

/-- The table `settings`, `_settings_cache` with its time, and the calls, in the order in which they
have started; `promised` is the value that a read of the key owes. -/
structure SettingsState where
  rows : List (String × String)
  cache : List (String × String)
  cacheTs : ℚ
  refresh : Option Refresh
  reads : List SettingRead
  writes : List SettingWrite
  promised : String → Option String

inductive SettingsAction
  | get (key : String) (now : ℚ)
  /-- A read gets the lock, and looks at the time again. -/
  | acquire (i : ℕ) (now : ℚ)
  | fetch
  | assign
  | stamp
  | failGet (i : ℕ)
  | set (key value : String) (nonce : ℕ)
  | commit (j : ℕ)
  | invalidate (j : ℕ)
  | failSet (j : ℕ)
  deriving DecidableEq

/-- `_SETTINGS_CACHE_TTL`. -/
def settingsCacheTtl : ℚ := 30

namespace SettingsState

/-- The cache is empty, or out of date. -/
def needsRefresh (s : SettingsState) (now : ℚ) : Bool :=
  s.cache.isEmpty || settingsCacheTtl ≤ now - s.cacheTs

/-- The step function. -/
def step (s : SettingsState) : SettingsAction → Option SettingsState
  | .get key now =>
      let stage :=
        if s.needsRefresh now then .waiting else .returned (readSetting fernet s.cache key)
      some { s with reads := s.reads ++ [⟨key, s.promised key, stage⟩] }
  | .acquire i now =>
      match s.reads[i]?, s.refresh with
      | some ⟨key, promise, .waiting⟩, none =>
          if s.needsRefresh now then
            some { s with
              refresh := some ⟨i, now, .opened⟩
              reads := s.reads.set i ⟨key, promise, .refreshing⟩ }
          else
            some { s with
              reads := s.reads.set i ⟨key, promise, .returned (readSetting fernet s.cache key)⟩ }
      | _, _ => none
  | .fetch =>
      match s.refresh with
      | some ⟨i, now, .opened⟩ => some { s with refresh := some ⟨i, now, .fetched s.rows⟩ }
      | _ => none
  | .assign =>
      match s.refresh with
      | some ⟨i, now, .fetched rows⟩ =>
          some { s with cache := rows, refresh := some ⟨i, now, .assigned⟩ }
      | _ => none
  | .stamp =>
      match s.refresh with
      | some ⟨i, now, .assigned⟩ =>
          match s.reads[i]? with
          | some ⟨key, promise, .refreshing⟩ =>
              some { s with
                cacheTs := now
                refresh := none
                reads := s.reads.set i ⟨key, promise, .returned (readSetting fernet s.cache key)⟩ }
          | _ => none
      | _ => none
  | .failGet i =>
      match s.reads[i]? with
      | some ⟨key, promise, .waiting⟩ =>
          some { s with reads := s.reads.set i ⟨key, promise, .failed⟩ }
      | some ⟨key, promise, .refreshing⟩ =>
          some { s with refresh := none, reads := s.reads.set i ⟨key, promise, .failed⟩ }
      | _ => none
  | .set key value nonce =>
      some { s with
        writes := s.writes ++ [⟨key, value, nonce, .begun⟩]
        promised := Function.update s.promised key none }
  | .commit j =>
      match s.writes[j]? with
      | some ⟨key, value, nonce, .begun⟩ =>
          some { s with
            rows := upsertSetting s.rows key (storedSetting fernet nonce key value)
            writes := s.writes.set j ⟨key, value, nonce, .committed⟩ }
      | _ => none
  | .invalidate j =>
      match s.writes[j]? with
      | some ⟨key, value, nonce, .committed⟩ =>
          some { s with
            cacheTs := 0
            writes := s.writes.set j ⟨key, value, nonce, .returned⟩
            promised := Function.update s.promised key (some value) }
      | _ => none
  | .failSet j =>
      match s.writes[j]? with
      | some ⟨key, value, nonce, .begun⟩ | some ⟨key, value, nonce, .committed⟩ =>
          some { s with writes := s.writes.set j ⟨key, value, nonce, .failed⟩ }
      | _ => none

/-- The worker has just started. -/
def start (rows : List (String × String)) : SettingsState where
  rows := rows
  cache := []
  cacheTs := 0
  refresh := none
  reads := []
  writes := []
  promised := fun _ => none

/-! ### The law and the condition -/

/-- A read of the key returns the value that it owes. -/
def ReadYourWrites (key : String) (s : SettingsState) : Prop :=
  ∀ read ∈ s.reads, read.key = key → ∀ value v, read.promise = some v →
    read.stage = .returned value → value = v

/-- The rows that the refresh in flight has read, and that will be stamped as fresh. -/
def pendingRows (s : SettingsState) : Option (List (String × String)) :=
  match s.refresh with
  | some ⟨_, _, .fetched rows⟩ => some rows
  | some ⟨_, _, .assigned⟩ => some s.cache
  | _ => none

/-- The clock has passed the half minute, if the cache is invalidated. -/
def Expired (s : SettingsState) (now : ℚ) : Prop :=
  s.cache ≠ [] → s.cacheTs = 0 → settingsCacheTtl ≤ now

/-- The condition for a key: an invalidated cache is out of date for its reads, a write of it does
not start while another one or a read that owes a value is in flight, and when a write of it
invalidates the cache, the refresh in flight has not read another value of it than the one that the
table holds. -/
def Settled (key : String) (s : SettingsState) : SettingsAction → Prop
  | .get k now => k = key → s.Expired now
  | .acquire i now => ∀ read, s.reads[i]? = some read → read.key = key → s.Expired now
  | .set k _ _ => k = key →
      (∀ write ∈ s.writes, write.key = key → write.stage.inFlight = false) ∧
      ∀ read ∈ s.reads, read.key = key → read.promise ≠ none → read.stage.inFlight = false
  | .invalidate j => ∀ write, s.writes[j]? = some write → write.key = key →
      ∀ rows, s.pendingRows = some rows → rows.lookup key = s.rows.lookup key
  | _ => True

/-! ### The invariant -/

/-- What is held back for a read of the key is what it owes. -/
structure Holds (key value : String) (s : SettingsState) : Prop where
  table : readSetting fernet s.rows key = value
  pending : ∀ rows, s.pendingRows = some rows → readSetting fernet rows key = value
  cached : s.cacheTs ≠ 0 → readSetting fernet s.cache key = value

/-- What holds for a key in every run that meets the condition. -/
structure Invariant (key : String) (s : SettingsState) : Prop where
  /-- One write at a time. -/
  single : ∀ (j j' : ℕ) (write write' : SettingWrite), s.writes[j]? = some write →
    s.writes[j']? = some write' → write.key = key → write'.key = key → write.stage.inFlight = true →
      write'.stage.inFlight = true → j = j'
  /-- While it is in flight, no value is owed. -/
  quiet : ∀ write ∈ s.writes, write.key = key → write.stage.inFlight = true → s.promised key = none
  committed : ∀ write ∈ s.writes, write.key = key → write.stage = .committed →
    readSetting fernet s.rows key = write.value
  promised : ∀ value, s.promised key = some value → s.Holds fernet key value
  reader : ∀ read ∈ s.reads, read.key = key → read.stage.inFlight = true →
    ∀ value, read.promise = some value → s.promised key = some value
  safe : s.ReadYourWrites key

section Steps

variable {fernet} {key : String} {s t : SettingsState} {action : SettingsAction}

/-- What a read makes of the rows depends on the row of its key alone. -/
theorem readSetting_congr {rows rows' : List (String × String)}
    (h : rows.lookup key = rows'.lookup key) :
    readSetting fernet rows key = readSetting fernet rows' key := by
  unfold readSetting
  rw [h]

/-- A cache that counts as fresh holds what is owed. -/
theorem Holds.fresh {value : String} {now : ℚ} (h : s.Holds fernet key value)
    (hexpired : s.Expired now)
    (hfresh : s.needsRefresh now = false) : readSetting fernet s.cache key = value := by
  simp only [needsRefresh, Bool.or_eq_false_iff, List.isEmpty_eq_false_iff, decide_eq_false_iff_not,
    not_le] at hfresh
  refine h.cached fun hzero => ?_
  have hlate := hexpired hfresh.1 hzero
  rw [hzero, sub_zero] at hfresh
  exact absurd hlate (not_le.2 hfresh.2)

/-- A step of the reads leaves the table and the writes alone. -/
theorem Invariant.frame (h : s.Invariant fernet key) (hrows : t.rows = s.rows)
    (hwrites : t.writes = s.writes)
    (hpromised : t.promised = s.promised)
    (hholds : ∀ value, s.promised key = some value → t.Holds fernet key value)
    (hreader : ∀ read ∈ t.reads, read.key = key → read.stage.inFlight = true →
      ∀ value, read.promise = some value → s.promised key = some value)
    (hsafe : t.ReadYourWrites key) : t.Invariant fernet key := by
  refine ⟨?_, ?_, ?_, ?_, ?_, hsafe⟩
  · rw [hwrites]
    exact h.single
  · rw [hwrites, hpromised]
    exact h.quiet
  · rw [hwrites, hrows]
    exact h.committed
  · rw [hpromised]
    exact hholds
  · rw [hpromised]
    exact hreader

/-- A read in flight comes to another stage, and returns what it owes if it returns. -/
theorem Invariant.setRead {i : ℕ} {read : SettingRead} {stage : ReadStage}
    (h : s.Invariant fernet key)
    (hget : s.reads[i]? = some read) (hflight : read.stage.inFlight = true)
    (hreads : t.reads = s.reads.set i { read with stage := stage }) (hrows : t.rows = s.rows)
    (hwrites : t.writes = s.writes) (hpromised : t.promised = s.promised)
    (hholds : ∀ value, s.promised key = some value → t.Holds fernet key value)
    (hreturn : read.key = key → ∀ value v, s.promised key = some v → stage = .returned value →
      value = v) :
    t.Invariant fernet key := by
  have hmem := List.mem_of_getElem? hget
  refine h.frame hrows hwrites hpromised hholds ?_ ?_
  · intro r hr hkey hstage value hpromise
    rw [hreads] at hr
    rcases List.mem_or_eq_of_mem_set hr with hr | rfl
    · exact h.reader r hr hkey hstage value hpromise
    · exact h.reader read hmem hkey hflight value hpromise
  · intro r hr hkey value v hpromise hstage
    rw [hreads] at hr
    rcases List.mem_or_eq_of_mem_set hr with hr | rfl
    · exact h.safe r hr hkey value v hpromise hstage
    · exact hreturn hkey value v (h.reader read hmem hkey hflight v hpromise) hstage

/-- What is owed stays held while only the reads change, and the refresh in flight may end. -/
theorem Holds.keep {value : String} (h : s.Holds fernet key value) (hrows : t.rows = s.rows)
    (hcache : t.cache = s.cache) (hts : t.cacheTs = s.cacheTs)
    (hpending : ∀ rows, t.pendingRows = some rows → s.pendingRows = some rows) :
    t.Holds fernet key value := by
  refine ⟨?_, fun rows hrows => h.pending rows (hpending rows hrows), ?_⟩
  · rw [hrows]
    exact h.table
  · rw [hcache, hts]
    exact h.cached

theorem Invariant.get {k : String} {now : ℚ} (h : s.Invariant fernet key)
    (hok : s.Settled key (.get k now)) (hstep : s.step fernet (.get k now) = some t) :
    t.Invariant fernet key := by
  obtain rfl := Option.some.inj hstep
  refine h.frame rfl rfl rfl
    (fun value hvalue => (h.promised value hvalue).keep rfl rfl rfl fun _ h => h)
    ?_ ?_
  · intro r hr hkey hstage value hpromise
    rcases List.mem_append.1 hr with hr | hr
    · exact h.reader r hr hkey hstage value hpromise
    · obtain rfl := List.mem_singleton.1 hr
      rw [← hkey]
      exact hpromise
  · intro r hr hkey value v hpromise hstage
    rcases List.mem_append.1 hr with hr | hr
    · exact h.safe r hr hkey value v hpromise hstage
    · obtain rfl := List.mem_singleton.1 hr
      obtain rfl : k = key := hkey
      -- the value comes from a cache that counts as fresh
      cases hfresh : s.needsRefresh now with
      | true => simp [hfresh] at hstage
      | false =>
          simp only [hfresh, Bool.false_eq_true, if_false, ReadStage.returned.injEq] at hstage
          rw [← hstage]
          exact (h.promised v hpromise).fresh (hok rfl) hfresh

theorem Invariant.acquire {i : ℕ} {now : ℚ} (h : s.Invariant fernet key)
    (hok : s.Settled key (.acquire i now)) (hstep : s.step fernet (.acquire i now) = some t) :
    t.Invariant fernet key := by
  simp only [step] at hstep
  split at hstep
  · next k promise hget hfree =>
      split_ifs at hstep with hneeds
      · cases hstep
        refine h.setRead hget rfl rfl rfl rfl rfl (fun value hvalue => ?_) nofun
        exact (h.promised value hvalue).keep rfl rfl rfl nofun
      · cases hstep
        refine h.setRead hget rfl rfl rfl rfl rfl (fun value hvalue => ?_) ?_
        · exact (h.promised value hvalue).keep rfl rfl rfl fun _ h => h
        · intro hkey value v hv hstage
          obtain rfl : k = key := hkey
          rw [← ReadStage.returned.inj hstage]
          exact (h.promised v hv).fresh (hok _ hget rfl) (by simpa using hneeds)
  · cases hstep

/-- What a refresh reads is what the table holds. -/
theorem Invariant.fetch (h : s.Invariant fernet key) (hstep : s.step fernet .fetch = some t) :
    t.Invariant fernet key := by
  simp only [step] at hstep
  split at hstep
  · cases hstep
    refine h.frame rfl rfl rfl (fun value hvalue => ?_) h.reader h.safe
    obtain ⟨htable, _, hcached⟩ := h.promised value hvalue
    refine ⟨htable, fun rows hrows => ?_, hcached⟩
    cases hrows
    exact htable
  · cases hstep

theorem Invariant.assign (h : s.Invariant fernet key) (hstep : s.step fernet .assign = some t) :
    t.Invariant fernet key := by
  simp only [step] at hstep
  split at hstep
  · next i now rows hrefresh =>
      cases hstep
      refine h.frame rfl rfl rfl (fun value hvalue => ?_) h.reader h.safe
      have hheld := h.promised value hvalue
      have hnew : readSetting fernet rows key = value := by
        refine hheld.pending rows ?_
        simp [pendingRows, hrefresh]
      refine ⟨hheld.table, fun rows hrows => ?_, fun _ => hnew⟩
      cases hrows
      exact hnew
  · cases hstep

/-- The cache that is stamped as fresh holds what is owed. -/
theorem Invariant.stamp (h : s.Invariant fernet key) (hstep : s.step fernet .stamp = some t) :
    t.Invariant fernet key := by
  simp only [step] at hstep
  split at hstep
  · next i now hrefresh =>
      have hcache : ∀ value, s.promised key = some value →
          readSetting fernet s.cache key = value := by
        intro value hvalue
        refine (h.promised value hvalue).pending s.cache ?_
        simp [pendingRows, hrefresh]
      split at hstep
      · next k promise hget =>
          cases hstep
          refine h.setRead hget rfl rfl rfl rfl rfl (fun value hvalue => ?_) ?_
          · exact ⟨(h.promised value hvalue).table, nofun, fun _ => hcache value hvalue⟩
          · intro hkey value v hv hstage
            obtain rfl : k = key := hkey
            rw [← ReadStage.returned.inj hstage]
            exact hcache v hv
      · cases hstep
  · cases hstep

theorem Invariant.failGet {i : ℕ} (h : s.Invariant fernet key)
    (hstep : s.step fernet (.failGet i) = some t) : t.Invariant fernet key := by
  simp only [step] at hstep
  split at hstep
  · next k promise hget =>
      cases hstep
      refine h.setRead hget rfl rfl rfl rfl rfl (fun value hvalue => ?_) nofun
      exact (h.promised value hvalue).keep rfl rfl rfl fun _ h => h
  · next k promise hget =>
      cases hstep
      refine h.setRead hget rfl rfl rfl rfl rfl (fun value hvalue => ?_) nofun
      exact (h.promised value hvalue).keep rfl rfl rfl nofun
  · cases hstep

/-- When a write of the key starts, nothing is owed any more. -/
theorem Invariant.set {k value : String} {nonce : ℕ} (h : s.Invariant fernet key)
    (hok : s.Settled key (.set k value nonce))
    (hstep : s.step fernet (.set k value nonce) = some t) :
    t.Invariant fernet key := by
  obtain rfl := Option.some.inj hstep
  -- of the key, the new write is the only one in flight
  have hidle : ∀ (j : ℕ) (write : SettingWrite), k = key → s.writes[j]? = some write →
      write.key = key →
      write.stage.inFlight = true → False := by
    intro j write hk hj hkey hflight
    rw [(hok hk).1 write (List.mem_of_getElem? hj) hkey] at hflight
    cases hflight
  refine ⟨?_, ?_, ?_, ?_, ?_, h.safe⟩
  · intro j j' write write' hj hj' hkey hkey' hflight hflight'
    rcases getElem?_concat_cases hj with hj | ⟨rfl, rfl⟩ <;>
      rcases getElem?_concat_cases hj' with hj' | ⟨rfl, rfl⟩
    · exact h.single j j' write write' hj hj' hkey hkey' hflight hflight'
    · exact (hidle j write hkey' hj hkey hflight).elim
    · exact (hidle j' write' hkey hj' hkey' hflight').elim
    · rfl
  · intro write hwrite hkey hflight
    simp only [Function.update_apply]
    split_ifs with hk
    · rfl
    · rcases List.mem_append.1 hwrite with hwrite | hwrite
      · exact h.quiet write hwrite hkey hflight
      · obtain rfl := List.mem_singleton.1 hwrite
        exact absurd hkey.symm hk
  · intro write hwrite hkey hstage
    rcases List.mem_append.1 hwrite with hwrite | hwrite
    · exact h.committed write hwrite hkey hstage
    · obtain rfl := List.mem_singleton.1 hwrite
      cases hstage
  · intro v hv
    simp only [Function.update_apply] at hv
    split_ifs at hv with hk
    exact (h.promised v hv).keep rfl rfl rfl fun _ h => h
  · intro r hr hkey hflight v hpromise
    simp only [Function.update_apply]
    split_ifs with hk
    · have hended := (hok hk.symm).2 r hr hkey (by simp [hpromise])
      rw [hended] at hflight
      cases hflight
    · exact h.reader r hr hkey hflight v hpromise

/-- A write in flight comes to another stage: what is in flight then was in flight before. -/
theorem write_of_set {i j : ℕ} {old write : SettingWrite} {stage : WriteStage}
    (hget : s.writes[j]? = some old) (hflight : old.stage.inFlight = true)
    (h : (s.writes.set j { old with stage := stage })[i]? = some write) :
    (i = j ∧ write = { old with stage := stage } ∨ i ≠ j ∧ s.writes[i]? = some write) ∧
      ∃ before, s.writes[i]? = some before ∧ before.key = write.key ∧
        (write.stage.inFlight = true → before.stage.inFlight = true) := by
  rcases getElem?_set_cases h with ⟨rfl, rfl⟩ | ⟨hij, h⟩
  · exact ⟨.inl ⟨rfl, rfl⟩, old, hget, rfl, fun _ => hflight⟩
  · exact ⟨.inr ⟨Ne.symm hij, h⟩, write, h, rfl, id⟩

/-- Still one write of the key at a time. -/
theorem Invariant.single_set {j : ℕ} {old : SettingWrite} {stage : WriteStage}
    (h : s.Invariant fernet key)
    (hget : s.writes[j]? = some old) (hflight : old.stage.inFlight = true)
    (hwrites : t.writes = s.writes.set j { old with stage := stage }) :
    ∀ (a b : ℕ) (write write' : SettingWrite), t.writes[a]? = some write →
      t.writes[b]? = some write' →
      write.key = key → write'.key = key → write.stage.inFlight = true →
        write'.stage.inFlight = true →
        a = b := by
  intro a b write write' ha hb hkey hkey' hstage hstage'
  rw [hwrites] at ha hb
  obtain ⟨_, before, hbefore, hsame, hback⟩ := write_of_set hget hflight ha
  obtain ⟨_, before', hbefore', hsame', hback'⟩ := write_of_set hget hflight hb
  exact h.single a b before before' hbefore hbefore' (hsame.trans hkey) (hsame'.trans hkey')
    (hback hstage)
    (hback' hstage')

/-- A write in flight of the key is the one that comes to another stage. -/
theorem Invariant.eq_of_inFlight {j : ℕ} {old write : SettingWrite} {stage : WriteStage}
    (h : s.Invariant fernet key) (hget : s.writes[j]? = some old)
    (hflight : old.stage.inFlight = true)
    (hold : old.key = key) (hwrite : write ∈ s.writes.set j { old with stage := stage })
    (hkey : write.key = key) (hstage : write.stage.inFlight = true) :
    write = { old with stage := stage } := by
  obtain ⟨a, ha⟩ := List.getElem?_of_mem hwrite
  obtain ⟨hcase, before, hbefore, hsame, hback⟩ := write_of_set hget hflight ha
  have haj := h.single a j before old hbefore hget (hsame.trans hkey) hold (hback hstage) hflight
  rcases hcase with ⟨_, hwrite⟩ | ⟨hne, _⟩
  · exact hwrite
  · exact absurd haj hne

/-- While a write of the key is in flight, nothing is owed, whatever stage it comes to. -/
theorem Invariant.quiet_set {j : ℕ} {old : SettingWrite} {stage : WriteStage}
    (h : s.Invariant fernet key)
    (hget : s.writes[j]? = some old) (hflight : old.stage.inFlight = true) :
    ∀ write ∈ s.writes.set j { old with stage := stage }, write.key = key →
      write.stage.inFlight = true → s.promised key = none := by
  intro write hwrite hkey hstage
  obtain ⟨a, ha⟩ := List.getElem?_of_mem hwrite
  obtain ⟨_, before, hbefore, hsame, hback⟩ := write_of_set hget hflight ha
  exact h.quiet before (List.mem_of_getElem? hbefore) (hsame.trans hkey) (hback hstage)

/-- When a write of the key commits, the table holds its value. -/
theorem Invariant.commit {j : ℕ} (h : s.Invariant fernet key)
    (hstep : s.step fernet (.commit j) = some t) :
    t.Invariant fernet key := by
  simp only [step] at hstep
  split at hstep
  · next k value nonce hget =>
      cases hstep
      have hmem := List.mem_of_getElem? hget
      -- the rows of the other keys stay
      have hother : key ≠ k → readSetting fernet
          (upsertSetting s.rows k (storedSetting fernet nonce k value)) key =
            readSetting fernet s.rows key := by
        intro hne
        refine readSetting_congr ?_
        rw [lookup_upsertSetting, if_neg hne]
      refine ⟨h.single_set hget rfl rfl, h.quiet_set hget rfl, ?_, ?_, h.reader, h.safe⟩
      · intro write hwrite hkey hstage
        by_cases hk : k = key
        · obtain rfl := hk
          obtain rfl := h.eq_of_inFlight hget rfl rfl hwrite hkey (by rw [hstage]; rfl)
          exact readSetting_upsertSetting fernet s.rows nonce k value
        · rw [hother (Ne.symm hk)]
          rcases List.mem_or_eq_of_mem_set hwrite with hwrite | rfl
          · exact h.committed write hwrite hkey hstage
          · exact absurd hkey hk
      · intro v hv
        have hne : key ≠ k := by
          rintro rfl
          rw [h.quiet _ hmem rfl rfl] at hv
          cases hv
        obtain ⟨htable, hpending, hcached⟩ := h.promised v hv
        exact ⟨(hother hne).trans htable, hpending, hcached⟩
  · cases hstep

/-- When a write of the key returns, its value is held in the table, and in what the refresh in
flight has read; the cache is out of date. -/
theorem Invariant.invalidate {j : ℕ} (h : s.Invariant fernet key)
    (hok : s.Settled key (.invalidate j))
    (hstep : s.step fernet (.invalidate j) = some t) : t.Invariant fernet key := by
  simp only [step] at hstep
  split at hstep
  · next k value nonce hget =>
      cases hstep
      have hmem := List.mem_of_getElem? hget
      refine ⟨h.single_set hget rfl rfl, ?_, ?_, ?_, ?_, h.safe⟩
      · intro write hwrite hkey hstage
        simp only [Function.update_apply]
        split_ifs with hk
        · obtain rfl := h.eq_of_inFlight hget rfl hk.symm hwrite hkey hstage
          cases hstage
        · exact h.quiet_set hget rfl write hwrite hkey hstage
      · intro write hwrite hkey hstage
        rcases List.mem_or_eq_of_mem_set hwrite with hwrite | rfl
        · exact h.committed write hwrite hkey hstage
        · cases hstage
      · intro v hv
        simp only [Function.update_apply] at hv
        split_ifs at hv with hk
        · obtain rfl := hk
          obtain rfl := Option.some.inj hv
          have htable := h.committed _ hmem rfl rfl
          refine ⟨htable, fun rows hrows => ?_, fun hzero => absurd rfl hzero⟩
          exact (readSetting_congr (hok _ hget rfl rows hrows)).trans htable
        · obtain ⟨htable, hpending, _⟩ := h.promised v hv
          exact ⟨htable, hpending, fun hzero => absurd rfl hzero⟩
      · intro r hr hkey hflight v hpromise
        have howed := h.reader r hr hkey hflight v hpromise
        simp only [Function.update_apply]
        split_ifs with hk
        · rw [h.quiet _ hmem hk.symm rfl] at howed
          cases howed
        · exact howed
  · cases hstep

theorem Invariant.failSet {j : ℕ} (h : s.Invariant fernet key)
    (hstep : s.step fernet (.failSet j) = some t) : t.Invariant fernet key := by
  -- a write that fails leaves what is held
  have hleft : ∀ {old : SettingWrite}, s.writes[j]? = some old → old.stage.inFlight = true →
      Invariant fernet key { s with writes := s.writes.set j { old with stage := .failed } } := by
    intro old hget hflight
    refine ⟨h.single_set hget hflight rfl, h.quiet_set hget hflight, ?_, fun v hv => ?_,
      h.reader, h.safe⟩
    · intro write hwrite hkey hstage
      rcases List.mem_or_eq_of_mem_set hwrite with hwrite | rfl
      · exact h.committed write hwrite hkey hstage
      · cases hstage
    · exact (h.promised v hv).keep rfl rfl rfl fun _ h => h
  simp only [step] at hstep
  split at hstep
  · next hget =>
      cases hstep
      exact hleft hget rfl
  · next hget =>
      cases hstep
      exact hleft hget rfl
  · cases hstep

/-- **What one step preserves.** -/
theorem invariant_step (h : s.Invariant fernet key) (hok : s.Settled key action)
    (hstep : s.step fernet action = some t) : t.Invariant fernet key := by
  cases action with
  | get k now => exact h.get hok hstep
  | acquire i now => exact h.acquire hok hstep
  | fetch => exact h.fetch hstep
  | assign => exact h.assign hstep
  | stamp => exact h.stamp hstep
  | failGet i => exact h.failGet hstep
  | set k value nonce => exact h.set hok hstep
  | commit j => exact h.commit hstep
  | invalidate j => exact h.invalidate hok hstep
  | failSet j => exact h.failSet hstep

/-- **The settings are read-your-writes along the runs that meet the condition**: a read of a key
that starts after a write of it has returned, and before another one starts, returns the value of
the write. -/
theorem readYourWrites_of_run {rows : List (String × String)} {actions : List SettingsAction}
    (hrun : GuardedRun (step fernet) (Settled key) (start rows) actions s) :
    s.ReadYourWrites key := by
  have hstart : (start rows).Invariant fernet key :=
    ⟨fun _ _ _ _ h => (nomatch h), fun _ h => (nomatch h), fun _ h => (nomatch h),
      fun _ h => (nomatch h), fun _ h => (nomatch h), fun _ h => (nomatch h)⟩
  have hinv : s.Invariant fernet key :=
    hrun.invariant hstart fun _ _ _ h hok hstep => invariant_step h hok hstep
  exact hinv.safe

/-- A write, and the read after it that refreshes the cache. -/
theorem readYourWrites_of_run_dryRun : ∃ s : SettingsState,
    GuardedRun (step none) (Settled "dry_run") (start [("dry_run", "false")])
      [.set "dry_run" "true" 0, .commit 0, .invalidate 0, .get "dry_run" 100,
        .acquire 0 100, .fetch, .assign, .stamp] s ∧
      s.reads = [⟨"dry_run", some "true", .returned "true"⟩] ∧ s.ReadYourWrites "dry_run" := by
  have hrun : ∃ s : SettingsState,
      GuardedRun (step none) (Settled "dry_run") (start [("dry_run", "false")])
        [.set "dry_run" "true" 0, .commit 0, .invalidate 0, .get "dry_run" 100,
          .acquire 0 100, .fetch, .assign, .stamp] s ∧
        s.reads = [⟨"dry_run", some "true", .returned "true"⟩] := by
    refine ⟨_, .cons (fun _ => ⟨fun _ h => (nomatch h), fun _ h => (nomatch h)⟩) rfl
      (.cons trivial rfl (.cons (fun _ _ _ _ h => nomatch h) rfl
        (.cons (fun _ hcache => absurd rfl hcache) rfl
          (.cons (fun _ _ _ hcache => absurd rfl hcache) rfl (.cons trivial rfl
            (.cons trivial rfl (.cons trivial rfl .nil))))))), ?_⟩
    decide +kernel
  obtain ⟨s, hrun, hreads⟩ := hrun
  exact ⟨s, hrun, hreads, readYourWrites_of_run hrun⟩

/-- A refresh reads the rows, a write of `dry_run` commits, invalidates the cache and returns, and
the refresh stamps the rows from before the write as fresh. -/
def lateRefresh : List SettingsAction :=
  [.get "dry_run" 100, .acquire 0 100, .fetch, .set "dry_run" "true" 0, .commit 0,
    .invalidate 0, .assign, .stamp, .get "dry_run" 101]

theorem isSome_runAll_lateRefresh :
    (runAll (step none) (start [("dry_run", "false")]) lateRefresh).isSome = true := by
  decide +kernel

/-- The read that starts after the write has returned gets the old value. -/
theorem not_readYourWrites_lateRefresh :
    ¬ ∀ (fernet : Option Fernet) key rows actions s,
      GuardedRun (step fernet) (fun _ _ => True) (start rows) actions s → s.ReadYourWrites key := by
  intro hclaim
  have hlaw := hclaim none "dry_run" _ _ _
    (GuardedRun.of_runAll (Option.some_get isSome_runAll_lateRefresh).symm)
  have hmem : ⟨"dry_run", some "true", .returned "false"⟩ ∈
      (Option.get _ isSome_runAll_lateRefresh).reads := by decide +kernel
  have heq : "false" = "true" := hlaw _ hmem rfl _ _ rfl rfl
  exact absurd heq (by decide)

end Steps

end SettingsState

end Hygie
