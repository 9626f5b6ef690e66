/-
**The cache of the storage page.**

What Radarr and Sonarr say about their disks is kept for five minutes.  A request that finds data
is answered at once, with old data as well; then a refresh is started in the background, unless one
is in flight.  Only a request that finds nothing waits for a fetch of its own.  The worker fetches
once more when it starts.  When it shuts down it forgets the refresh, tells it to stop and waits for
its end; a request that comes meanwhile may start another one.

Between two awaits nothing interferes, and nothing is awaited between the look at the cache and the
answer of a request that finds data: the lock around the start of a refresh is held by nobody else.
Fetches take any time, fail at any time and store in any order; each of them writes when it ends,
also when the cache has been emptied or renewed since it began.

Main definitions:

* `StorageState.step` — the steps of the requests, of the fetches and of the worker;
* `StorageState.Moves` — what a step can do;
* `StorageState.answer` — what a step answers to the request that waits for it;
* `StorageState.Safe` — the laws.

Main results:

* `StorageState.invariant_step` — what one step preserves;
* `StorageState.stopped_of_run` — a refresh that is told to stop stores nothing;
* `StorageState.cacheLaws_of_run` — **the laws hold in every state that is reached**.
-/

import Hygie.GuardedRuns

set_option relaxedAutoImplicit false
set_option autoImplicit false

namespace Hygie

/-! ### The cache and its fetches -/

-- what `collect_storage_data` returns
variable {δ : Type}

/-- What `_storage_cache` holds. -/
structure StorageEntry (δ : Type) where
  data : δ
  ts : ℚ
  deriving DecidableEq

/-- Who called `_fetch_storage_data`. -/
inductive FetchOwner
  | request | refresh | prewarm
  deriving DecidableEq, Repr

inductive FetchStage
  /-- The task exists, and has not run yet. -/
  | created
  | collecting
  /-- It is told to stop, and has not ended yet. -/
  | cancelling
  /-- Stored, failed or cancelled. -/
  | ended
  deriving DecidableEq, Repr

/-- It has neither ended nor been told to stop. -/
def FetchStage.isLive : FetchStage → Bool
  | .created | .collecting => true
  | .cancelling | .ended => false

structure StorageFetch where
  owner : FetchOwner
  stage : FetchStage
  deriving DecidableEq, Repr

/-- The last reading of the clock, `_storage_cache`, `_storage_refresh_task`, and the fetches in the
order in which they were started. -/
structure StorageState (δ : Type) where
  clock : ℚ
  cache : Option (StorageEntry δ)
  refreshTask : Option ℕ
  fetches : List StorageFetch
  deriving DecidableEq

inductive StorageAction (δ : Type)
  | getStorage (now : ℚ)
  /-- `_start_storage_prewarm`. -/
  | startPrewarm
  /-- A task runs for the first time. -/
  | begin (i : ℕ)
  /-- `collect_storage_data` returns, and the cache is updated. -/
  | store (i : ℕ) (now : ℚ) (data : δ)
  /-- It raises, also because it was told to stop. -/
  | fail (i : ℕ)
  | invalidateStorageCache
  /-- `cancel_storage_refresh`, until it waits for the task to end. -/
  | cancelStorageRefresh
  deriving DecidableEq

/-- `_STORAGE_TTL`. -/
def storageTtl : ℚ := 300

def StorageFetch.stop (fetch : StorageFetch) : StorageFetch := { fetch with stage := .ended }

/-- `task.cancel()`, unless the task is done. -/
def StorageFetch.cancel (fetch : StorageFetch) : StorageFetch :=
  { fetch with stage := if fetch.stage = .ended then .ended else .cancelling }

namespace StorageState

/-- `_storage_refresh_task` is a task that is not done. -/
def refreshing (s : StorageState δ) : Bool :=
  match s.refreshTask.bind (s.fetches[·]?) with
  | some fetch => fetch.stage != .ended
  | none => false

/-- The step function. -/
def step (s : StorageState δ) : StorageAction δ → Option (StorageState δ)
  | .getStorage now =>
      match s.cache with
      | none => some
          { s with clock := now, fetches := s.fetches ++ [⟨.request, .collecting⟩] }
      | some entry =>
          if now - entry.ts < storageTtl || s.refreshing then some { s with clock := now }
          else some
            { s with
              clock := now
              refreshTask := some s.fetches.length
              fetches := s.fetches ++ [⟨.refresh, .created⟩] }
  | .startPrewarm => some { s with fetches := s.fetches ++ [⟨.prewarm, .created⟩] }
  | .begin i =>
      match s.fetches[i]? with
      | some ⟨owner, .created⟩ => some
          { s with fetches := s.fetches.set i ⟨owner, .collecting⟩ }
      | _ => none
  | .store i now data =>
      match s.fetches[i]? with
      | some ⟨_, .collecting⟩ => some
          { s with
            clock := now
            cache := some ⟨data, now⟩
            fetches := s.fetches.modify i .stop }
      | _ => none
  | .fail i =>
      match s.fetches[i]? with
      | some ⟨_, .ended⟩ | none => none
      | some _ => some { s with fetches := s.fetches.modify i .stop }
  | .invalidateStorageCache => some { s with cache := none }
  | .cancelStorageRefresh =>
      match s.refreshTask with
      | none => some s
      | some i => some { s with refreshTask := none, fetches := s.fetches.modify i .cancel }

/-- What a step answers to a request: to the one that comes, or to the one that waits for the fetch
that ends. -/
def answer (s : StorageState δ) : StorageAction δ → Option (StorageEntry δ)
  | .getStorage _ => s.cache
  | .store i now data =>
      match s.fetches[i]? with
      | some ⟨.request, .collecting⟩ => some ⟨data, now⟩
      | _ => none
  | _ => none

/-- A worker that has just started. -/
def start (clock : ℚ) : StorageState δ where
  clock := clock
  cache := none
  refreshTask := none
  fetches := []

/-- What a step can do. -/
inductive Moves (s : StorageState δ) : StorageAction δ → StorageState δ → Prop
  | wait (now : ℚ) (hcache : s.cache = none) : s.Moves (.getStorage now)
      { s with clock := now, fetches := s.fetches ++ [⟨.request, .collecting⟩] }
  | answer (now : ℚ) : s.Moves (.getStorage now) { s with clock := now }
  | refresh (now : ℚ) (hdone : s.refreshing = false) : s.Moves (.getStorage now)
      { s with
        clock := now
        refreshTask := some s.fetches.length
        fetches := s.fetches ++ [⟨.refresh, .created⟩] }
  | prewarm : s.Moves .startPrewarm { s with fetches := s.fetches ++ [⟨.prewarm, .created⟩] }
  | begin (i : ℕ) (owner : FetchOwner) (hfetch : s.fetches[i]? = some ⟨owner, .created⟩) :
      s.Moves (.begin i) { s with fetches := s.fetches.set i ⟨owner, .collecting⟩ }
  | store (i : ℕ) (now : ℚ) (data : δ) : s.Moves (.store i now data)
      { s with clock := now, cache := some ⟨data, now⟩, fetches := s.fetches.modify i .stop }
  | fail (i : ℕ) : s.Moves (.fail i) { s with fetches := s.fetches.modify i .stop }
  | invalidate : s.Moves .invalidateStorageCache { s with cache := none }
  | idle : s.Moves .cancelStorageRefresh s
  | cancel (i : ℕ) (htask : s.refreshTask = some i) : s.Moves .cancelStorageRefresh
      { s with refreshTask := none, fetches := s.fetches.modify i .cancel }

theorem moves_of_step {s t : StorageState δ} {action : StorageAction δ}
    (hstep : s.step action = some t) : s.Moves action t := by
  cases action with
  | getStorage now =>
      simp only [step] at hstep
      split at hstep
      · next hcache =>
          obtain rfl := Option.some.inj hstep
          exact .wait now hcache
      · split_ifs at hstep with hanswer
        · obtain rfl := Option.some.inj hstep
          exact .answer now
        · obtain rfl := Option.some.inj hstep
          rw [Bool.or_eq_true, not_or, Bool.not_eq_true s.refreshing] at hanswer
          exact .refresh now hanswer.2
  | startPrewarm =>
      obtain rfl := Option.some.inj hstep
      exact .prewarm
  | begin i =>
      simp only [step] at hstep
      split at hstep
      · next owner hfetch =>
          obtain rfl := Option.some.inj hstep
          exact .begin i owner hfetch
      · cases hstep
  | store i now data =>
      simp only [step] at hstep
      split at hstep
      · obtain rfl := Option.some.inj hstep
        exact .store i now data
      · cases hstep
  | fail i =>
      simp only [step] at hstep
      split at hstep
      · cases hstep
      · cases hstep
      · obtain rfl := Option.some.inj hstep
        exact .fail i
  | invalidateStorageCache =>
      obtain rfl := Option.some.inj hstep
      exact .invalidate
  | cancelStorageRefresh =>
      simp only [step] at hstep
      split at hstep
      · obtain rfl := Option.some.inj hstep
        exact .idle
      · next i htask =>
          obtain rfl := Option.some.inj hstep
          exact .cancel i htask

/-! ### The laws -/

/-- The clock does not go back. -/
def InTime (s : StorageState δ) : StorageAction δ → Prop
  | .getStorage now | .store _ now _ => s.clock ≤ now
  | _ => True

/-- A refresh in the background is in flight, and has not been told to stop. -/
def Live (s : StorageState δ) (i : ℕ) : Prop :=
  ∃ stage, s.fetches[i]? = some ⟨.refresh, stage⟩ ∧ stage.isLive = true

/-- The laws of the cache in a state. -/
structure Safe (s : StorageState δ) : Prop where
  /-- One refresh at a time is in flight and has not been told to stop. -/
  oneRefresh : ∀ i j, s.Live i → s.Live j → i = j
  /-- Once `cancel_storage_refresh` is called, a refresh that was in flight stores nothing, whenever
  it ends. -/
  cancelled : ∀ t actions u, s.step .cancelStorageRefresh = some t →
    GuardedRun step InTime t actions u → ∀ i, s.Live i →
      ¬ u.Live i ∧ ∀ now data, u.step (.store i now data) = none
  /-- An answer is what the cache holds, and is younger than five minutes, or a refresh is in flight
  that has not been told to stop. -/
  revalidated : ∀ action t entry, s.InTime action → s.step action = some t →
    s.answer action = some entry → t.cache = some entry ∧ entry.ts ≤ t.clock ∧
      (t.clock - entry.ts < storageTtl ∨ ∃ i, t.Live i)
  /-- Once there are data, no request waits until the cache is emptied. -/
  atOnce : s.cache ≠ none → ∀ actions t,
    GuardedRun step (fun _ action => action ≠ .invalidateStorageCache) s actions t →
      ∀ now, t.answer (.getStorage now) ≠ none

/-! ### The invariant -/

/-- What holds in every run: `_storage_refresh_task` is a refresh that has not been told to stop, a
refresh in flight that has not been told so is the task, and what was stored is not in the
future. -/
structure Invariant (s : StorageState δ) : Prop where
  task : ∀ i, s.refreshTask = some i →
    ∃ stage, s.fetches[i]? = some ⟨.refresh, stage⟩ ∧ stage ≠ .cancelling
  tracked : ∀ i, s.Live i → s.refreshTask = some i
  stored : ∀ entry, s.cache = some entry → entry.ts ≤ s.clock

theorem invariant_start (clock : ℚ) : (start clock : StorageState δ).Invariant where
  task := by
    intro i htask
    cases htask
  tracked := by
    rintro i ⟨stage, hfetch, -⟩
    simp [start] at hfetch
  stored := by
    intro entry hcache
    cases hcache

variable {s t : StorageState δ} {action : StorageAction δ} {fetch : StorageFetch} {i j : ℕ}
  {now : ℚ}

theorem isLive_cancel (fetch : StorageFetch) : fetch.cancel.stage.isLive = false := by
  unfold StorageFetch.cancel
  dsimp only
  split_ifs <;> rfl

namespace Invariant

/-- Where the task is done, no refresh is in flight, and conversely. -/
theorem refreshing_iff (h : s.Invariant) : s.refreshing = true ↔ ∃ i, s.Live i := by
  constructor
  · intro hrefreshing
    cases htask : s.refreshTask with
    | none => simp [refreshing, htask] at hrefreshing
    | some i =>
        obtain ⟨stage, hfetch, hstage⟩ := h.task i htask
        refine ⟨i, stage, hfetch, ?_⟩
        cases stage with
        | created | collecting => rfl
        | cancelling => exact absurd rfl hstage
        | ended => simp [refreshing, htask, hfetch] at hrefreshing
  · rintro ⟨i, stage, hfetch, hlive⟩
    have htask := h.tracked i ⟨stage, hfetch, hlive⟩
    cases stage with
    | created | collecting => simp [refreshing, htask, hfetch]
    | cancelling | ended => cases hlive

/-- Time passes. -/
theorem tick (h : s.Invariant) (hle : s.clock ≤ now) : { s with clock := now }.Invariant where
  task := h.task
  tracked := h.tracked
  stored entry hcache := (h.stored entry hcache).trans hle

/-- Data are stored, or the cache is emptied. -/
theorem setCache {cache : Option (StorageEntry δ)} (h : s.Invariant)
    (hcache : ∀ entry, cache = some entry → entry.ts ≤ s.clock) :
    { s with cache := cache }.Invariant where
  task := h.task
  tracked := h.tracked
  stored := hcache

/-- A fetch is started that is no refresh. -/
theorem addFetch (fetch : StorageFetch) (h : s.Invariant) (howner : fetch.owner ≠ .refresh) :
    { s with fetches := s.fetches ++ [fetch] }.Invariant where
  task i htask := by
    obtain ⟨stage, hfetch, hstage⟩ := h.task i htask
    have hlt := (List.getElem?_eq_some_iff.1 hfetch).1
    exact ⟨stage, List.getElem?_append_left hlt ▸ hfetch, hstage⟩
  tracked := by
    rintro i ⟨stage, hfetch, hlive⟩
    rcases getElem?_concat_cases hfetch with hold | ⟨-, rfl⟩
    · exact h.tracked i ⟨stage, hold, hlive⟩
    · exact absurd rfl howner
  stored := h.stored

/-- A refresh is started where none is in flight. -/
theorem addRefresh (h : s.Invariant) (hdone : s.refreshing = false) :
    Invariant
      { s with
        refreshTask := some s.fetches.length
        fetches := s.fetches ++ [⟨.refresh, .created⟩] } where
  task := by
    rintro i htask
    obtain rfl := Option.some.inj htask
    exact ⟨.created, List.getElem?_concat_length, nofun⟩
  tracked := by
    rintro i ⟨stage, hfetch, hlive⟩
    rcases getElem?_concat_cases hfetch with hold | ⟨rfl, -⟩
    · have hrefreshing : s.refreshing = true := h.refreshing_iff.2 ⟨i, stage, hold, hlive⟩
      exact absurd (hdone.symm.trans hrefreshing) Bool.false_ne_true
    · rfl
  stored := h.stored

/-- A task runs for the first time. -/
theorem beginFetch {owner : FetchOwner} (h : s.Invariant)
    (hold : s.fetches[i]? = some ⟨owner, .created⟩) :
    { s with fetches := s.fetches.set i ⟨owner, .collecting⟩ }.Invariant where
  task j htask := by
    obtain ⟨stage, hfetch, hstage⟩ := h.task j htask
    rcases eq_or_ne i j with rfl | hne
    · obtain ⟨rfl, -⟩ := StorageFetch.mk.inj (Option.some.inj (hold.symm.trans hfetch))
      exact ⟨_, List.getElem?_set_self (List.getElem?_eq_some_iff.1 hold).1, nofun⟩
    · exact ⟨stage, by rwa [List.getElem?_set_ne hne], hstage⟩
  tracked := by
    rintro j ⟨stage, hfetch, hlive⟩
    rcases getElem?_set_cases hfetch with ⟨rfl, hnew⟩ | ⟨-, hother⟩
    · obtain ⟨rfl, -⟩ := StorageFetch.mk.inj hnew
      exact h.tracked i ⟨.created, hold, rfl⟩
    · exact h.tracked j ⟨stage, hother, hlive⟩
  stored := h.stored

/-- A fetch ends. -/
theorem stopFetch (h : s.Invariant) : { s with fetches := s.fetches.modify i .stop }.Invariant where
  task j htask := by
    obtain ⟨stage, hfetch, hstage⟩ := h.task j htask
    rcases eq_or_ne i j with rfl | hne
    · exact ⟨.ended, by simp [hfetch, StorageFetch.stop], nofun⟩
    · exact ⟨stage, by simp [hfetch, hne], hstage⟩
  tracked := by
    rintro j ⟨stage, hfetch, hlive⟩
    obtain ⟨old, hold, ⟨-, hnew⟩ | ⟨-, rfl⟩⟩ := getElem?_modify_cases hfetch
    · obtain rfl : FetchStage.ended = stage := congrArg StorageFetch.stage hnew
      cases hlive
    · exact h.tracked j ⟨stage, hold, hlive⟩
  stored := h.stored

/-- Where the task is told to stop, no refresh is in flight that has not been told so. -/
theorem not_live_cancelled (h : s.Invariant) (htask : s.refreshTask = some i) :
    ¬ Live { s with refreshTask := none, fetches := s.fetches.modify i .cancel } j := by
  rintro ⟨stage, hfetch, hlive⟩
  obtain ⟨old, hold, ⟨-, hnew⟩ | ⟨hij, rfl⟩⟩ := getElem?_modify_cases hfetch
  · obtain rfl : old.cancel.stage = stage := congrArg StorageFetch.stage hnew
    rw [isLive_cancel] at hlive
    cases hlive
  · exact hij (Option.some.inj (htask.symm.trans (h.tracked j ⟨stage, hold, hlive⟩)))

theorem cancel (h : s.Invariant) (htask : s.refreshTask = some i) :
    Invariant { s with refreshTask := none, fetches := s.fetches.modify i .cancel } where
  task := nofun
  tracked _ hlive := absurd hlive (h.not_live_cancelled htask)
  stored := h.stored

end Invariant

/-- **What one step preserves.** -/
theorem invariant_step (h : s.Invariant) (hok : s.InTime action)
    (hstep : s.step action = some t) : t.Invariant := by
  cases moves_of_step hstep with
  | wait now => exact (h.tick hok).addFetch ⟨.request, .collecting⟩ nofun
  | answer now => exact h.tick hok
  | refresh now hdone => exact (h.tick hok).addRefresh hdone
  | prewarm => exact h.addFetch ⟨.prewarm, .created⟩ nofun
  | begin i owner hfetch => exact h.beginFetch hfetch
  | store i now data =>
      refine (h.tick hok).stopFetch.setCache ?_
      intro entry hentry
      obtain rfl := Option.some.inj hentry
      exact le_rfl
  | fail i => exact h.stopFetch
  | invalidate => exact h.setCache nofun
  | idle => exact h
  | cancel i htask => exact h.cancel htask

theorem invariant_of_run {clock : ℚ} {actions : List (StorageAction δ)}
    (hrun : GuardedRun step InTime (start clock) actions s) : s.Invariant :=
  hrun.invariant (invariant_start clock) fun _ _ _ h hok hstep => invariant_step h hok hstep

/-! ### A refresh that is told to stop -/

/-- A fetch that has ended or been told to stop. -/
def Stopped (s : StorageState δ) (i : ℕ) : Prop :=
  ∃ fetch, s.fetches[i]? = some fetch ∧ fetch.stage.isLive = false

theorem stopped_modify {f : StorageFetch → StorageFetch}
    (hf : ∀ fetch, (f fetch).stage.isLive = false) (h : s.Stopped i) :
    ∃ fetch, (s.fetches.modify j f)[i]? = some fetch ∧ fetch.stage.isLive = false := by
  obtain ⟨fetch, hfetch, hstopped⟩ := h
  rcases eq_or_ne j i with rfl | hne
  · exact ⟨f fetch, by simp [hfetch], hf fetch⟩
  · exact ⟨fetch, by simp [hfetch, hne], hstopped⟩

theorem stopped_concat (fetch : StorageFetch) (h : s.Stopped i) :
    ∃ old, (s.fetches ++ [fetch])[i]? = some old ∧ old.stage.isLive = false := by
  obtain ⟨old, hold, hstopped⟩ := h
  have hlt := (List.getElem?_eq_some_iff.1 hold).1
  exact ⟨old, (List.getElem?_append_left hlt).trans hold, hstopped⟩

/-- **What one step preserves**: a fetch that has ended or been told to stop does not go on. -/
theorem Stopped.step (h : s.Stopped i) (hstep : s.step action = some t) : t.Stopped i := by
  cases moves_of_step hstep with
  | wait | refresh | prewarm => exact stopped_concat _ h
  | answer | invalidate | idle => exact h
  | begin j owner hfetch =>
      obtain ⟨old, hold, hstopped⟩ := h
      have hne : j ≠ i := by
        rintro rfl
        obtain rfl := Option.some.inj (hfetch.symm.trans hold)
        cases hstopped
      exact ⟨old, (List.getElem?_set_ne hne).trans hold, hstopped⟩
  | store | fail => exact stopped_modify (fun _ => rfl) h
  | cancel => exact stopped_modify isLive_cancel h

/-- **A refresh that is told to stop stores nothing**, whenever it ends. -/
theorem stopped_of_run {u : StorageState δ} {actions : List (StorageAction δ)} (h : s.Invariant)
    (hstep : s.step .cancelStorageRefresh = some t)
    (hrun : GuardedRun step InTime t actions u) (hlive : s.Live i) :
    ¬ u.Live i ∧ ∀ now data, u.step (.store i now data) = none := by
  have hcancelled : t.Stopped i := by
    have htask := h.tracked i hlive
    obtain ⟨stage, hfetch, -⟩ := hlive
    simp only [step, htask] at hstep
    obtain rfl := Option.some.inj hstep
    exact ⟨StorageFetch.cancel ⟨.refresh, stage⟩, by simp [hfetch], isLive_cancel _⟩
  obtain ⟨fetch, hfetch, hstopped⟩ : u.Stopped i :=
    hrun.invariant (I := (Stopped · i)) hcancelled fun _ _ _ h _ hstep => h.step hstep
  constructor
  · rintro ⟨stage, hrefresh, hlive⟩
    obtain rfl := Option.some.inj (hfetch.symm.trans hrefresh)
    rw [hlive] at hstopped
    cases hstopped
  · intro now data
    obtain ⟨owner, stage⟩ := fetch
    cases stage with
    | created | collecting => cases hstopped
    | cancelling | ended => simp only [step, hfetch]

/-! ### The answers -/

/-- Only where it is emptied does the cache get empty. -/
theorem cache_step (hok : action ≠ .invalidateStorageCache) (hstep : s.step action = some t)
    (hcache : s.cache ≠ none) : t.cache ≠ none := by
  cases moves_of_step hstep with
  | store => exact nofun
  | invalidate => exact absurd rfl hok
  | _ => exact hcache

/-- A request that finds data: they are young, or a refresh is in flight afterwards. -/
theorem getStorage_answered {entry : StorageEntry δ} (h : s.Invariant)
    (hcache : s.cache = some entry) (hstep : s.step (.getStorage now) = some t) :
    t.cache = some entry ∧ t.clock = now ∧ (now - entry.ts < storageTtl ∨ ∃ i, t.Live i) := by
  simp only [step, hcache] at hstep
  split_ifs at hstep with hanswer
  · obtain rfl := Option.some.inj hstep
    refine ⟨rfl, rfl, ?_⟩
    rw [Bool.or_eq_true, decide_eq_true_eq] at hanswer
    exact hanswer.imp_right fun hrefreshing => h.refreshing_iff.1 hrefreshing
  · obtain rfl := Option.some.inj hstep
    exact ⟨rfl, rfl, .inr ⟨s.fetches.length, .created, List.getElem?_concat_length, rfl⟩⟩

/-- The laws follow from the invariant. -/
theorem Invariant.safe (h : s.Invariant) : s.Safe where
  oneRefresh i j hi hj := Option.some.inj ((h.tracked i hi).symm.trans (h.tracked j hj))
  cancelled _ _ _ hstep hrun _ hlive := stopped_of_run h hstep hrun hlive
  revalidated := by
    intro action t entry hok hstep hanswer
    cases action with
    | getStorage now =>
        obtain ⟨hcache, rfl, hyoung⟩ := getStorage_answered h hanswer hstep
        exact ⟨hcache, (h.stored entry hanswer).trans hok, hyoung⟩
    | store i now data =>
        simp only [answer] at hanswer
        split at hanswer
        · next hfetch =>
            obtain rfl := Option.some.inj hanswer
            simp only [step, hfetch] at hstep
            obtain rfl := Option.some.inj hstep
            refine ⟨rfl, le_rfl, .inl ?_⟩
            simp [storageTtl]
        · cases hanswer
    | startPrewarm => cases hanswer
    | begin i => cases hanswer
    | fail i => cases hanswer
    | invalidateStorageCache => cases hanswer
    | cancelStorageRefresh => cases hanswer
  atOnce := by
    intro hcache actions t hrun now
    exact hrun.invariant hcache fun _ _ _ hkeep hok hstep => cache_step hok hstep hkeep

/-- **The laws hold in every state that is reached**, by any requests and fetches in any order. -/
theorem cacheLaws_of_run {clock : ℚ} {actions : List (StorageAction δ)}
    (hrun : GuardedRun step InTime (start clock) actions s) : s.Safe :=
  (invariant_of_run hrun).safe

/-- Old data, a refresh that is told to stop, and another one that was started meanwhile. -/
def sampleStale : StorageState ℕ where
  clock := 401
  cache := some ⟨7, 2⟩
  refreshTask := some 2
  fetches := [⟨.prewarm, .ended⟩, ⟨.refresh, .cancelling⟩, ⟨.refresh, .created⟩]

theorem cacheLaws_of_run_stale : GuardedRun step InTime (start 0)
    [.startPrewarm, .begin 0, .store 0 2 7, .getStorage 400, .cancelStorageRefresh,
      .getStorage 401] sampleStale ∧ sampleStale.Live 2 ∧ sampleStale.Safe := by
  have hstale : ∀ now : ℚ, 400 ≤ now → ¬ (now - 2 < storageTtl) := by
    intro now hnow
    rw [storageTtl]
    linarith
  have hrun : GuardedRun step InTime (start 0)
      [.startPrewarm, .begin 0, .store 0 2 7, .getStorage 400, .cancelStorageRefresh,
        .getStorage 401] sampleStale := by
    refine .cons trivial rfl (.cons trivial rfl (.cons ?_ rfl (.cons ?_ (if_neg ?_)
      (.cons trivial rfl (.cons ?_ (if_neg ?_) .nil)))))
    · exact zero_le_two
    · change (2 : ℚ) ≤ 400
      norm_num
    · simp [hstale 400 le_rfl, refreshing, start]
    · change (400 : ℚ) ≤ 401
      norm_num
    · simp [hstale 401 (by norm_num), refreshing]
  exact ⟨hrun, ⟨.created, rfl, rfl⟩, cacheLaws_of_run hrun⟩

end StorageState

end Hygie
