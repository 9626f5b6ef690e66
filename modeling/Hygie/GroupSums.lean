/-
**The sums of seasons and series.**

A consolidated row stands for a season or a series, and no media server knows its identifier.  So a
scan adds up what it sees of the episodes, by series and by season (`accumulateConsolidatedWatch`),
and writes the sums that have a date.  A row that the scan inserts gets the sum of the eligible
episodes of its group.

Main definitions:

* `accumulateConsolidatedWatch`, `consolidatedWatch` — the sums of a scan;
* `consolidatedParams` — the writes that they become.

Main results:

* `groupEmbyId_injective` — **a group has an identifier of its own**;
* `latest_consolidatedWatch`, `count_consolidatedWatch` — **the sum of a group**;
* `mem_consolidatedParams` — **the groups that are written**;
* `notLater_groupWatchState_iff`, `le_groupWatchState_iff` — the sum of the entry of a group;
* `mem_consolidateAndInsert_iff` — **the entries that are inserted**.
-/

import Hygie.DueSelection
import Hygie.PyInt
import Hygie.RequesterFilter

set_option relaxedAutoImplicit false
set_option autoImplicit false

namespace Hygie

/-! ### Identifiers of groups -/

theorem groupEmbyId_season (sid sn : ℤ) :
    groupEmbyId (sid, some sn) = "sonarr-season:" ++ (Int.repr sid ++ (":" ++ Int.repr sn)) := by
  rw [← String.append_assoc, ← String.append_assoc]
  rfl

theorem groupEmbyId_series (sid : ℤ) :
    groupEmbyId (sid, none) = "sonarr-series:" ++ Int.repr sid := rfl

/-- The identifier of a group is a synthetic one. -/
theorem isConsolidatedId_groupEmbyId (key : GroupKey) :
    isConsolidatedId (groupEmbyId key) = true := by
  rw [isConsolidatedId, Bool.or_eq_true, PyText.startsWith_iff, PyText.startsWith_iff]
  rcases key with ⟨sid, _ | sn⟩
  · exact .inl ⟨_, groupEmbyId_series sid⟩
  · exact .inr ⟨_, groupEmbyId_season sid sn⟩

theorem toList_season (sid sn : ℤ) :
    (groupEmbyId (sid, some sn)).toList =
      "sonarr-season:".toList ++ ((Int.repr sid).toList ++ ':' :: (Int.repr sn).toList) := by
  rw [groupEmbyId_season, String.toList_append, String.toList_append, String.toList_append]
  rfl

theorem toList_series (sid : ℤ) :
    (groupEmbyId (sid, none)).toList = "sonarr-series:".toList ++ (Int.repr sid).toList := by
  rw [groupEmbyId_series, String.toList_append]

/-- The numeral of a series ends at the first colon. -/
theorem takeWhile_repr (sid : ℤ) (rest : List Char) :
    ((Int.repr sid).toList ++ ':' :: rest).takeWhile (· ≠ ':') = (Int.repr sid).toList := by
  have hdigits : ∀ c ∈ (Int.repr sid).toList, decide (c ≠ ':') = true := by
    intro c hc
    rw [decide_eq_true_eq]
    rintro rfl
    rcases PyText.isDigit_or_minus hc with h | h
    · exact absurd h (by decide)
    · exact absurd h (by decide)
  rw [List.takeWhile_append_of_pos hdigits]
  simp

/-- **A group has an identifier of its own.** -/
theorem groupEmbyId_injective : Function.Injective groupEmbyId := by
  have hne : ∀ sid sid' sn : ℤ, groupEmbyId (sid, none) ≠ groupEmbyId (sid', some sn) := by
    intro sid sid' sn h
    have hlist := congrArg String.toList h
    rw [toList_series, toList_season] at hlist
    exact absurd (List.append_inj hlist (by decide)).1 (by decide)
  rintro ⟨sid, _ | sn⟩ ⟨sid', _ | sn'⟩ h
  · have hlist := congrArg String.toList h
    rw [toList_series, toList_series, List.append_cancel_left_eq] at hlist
    obtain rfl := Int.repr_injective (String.toList_injective hlist)
    rfl
  · exact absurd h (hne _ _ _)
  · exact absurd h.symm (hne _ _ _)
  · have hlist := congrArg String.toList h
    rw [toList_season, toList_season, List.append_cancel_left_eq] at hlist
    have hsid := congrArg (List.takeWhile (· ≠ ':')) hlist
    rw [takeWhile_repr, takeWhile_repr] at hsid
    obtain rfl := Int.repr_injective (String.toList_injective hsid)
    rw [List.append_cancel_left_eq, List.cons.injEq] at hlist
    obtain rfl := Int.repr_injective (String.toList_injective hlist.2)
    rfl

/-! ### The sum of a group -/

/-- The groups of an episode file: its series, and its season. -/
def SonarrCacheEntry.groupKeys (e : SonarrCacheEntry) : List GroupKey :=
  match e.seriesId with
  | none => []
  | some sid => (sid, none) :: (e.seasonNumber.map fun sn => (sid, some sn)).toList

/-- The keys of an item in the sums: those of its file, as Sonarr's cache knows it. -/
def ScannedItem.watchKeys (cache : SonarrCache) (item : ScannedItem) : List String :=
  if item.id = "" then []
  else
    match cache.lookup item.path with
    | none => []
    | some e => e.groupKeys.map groupEmbyId

/-- The plays of an item. -/
def ScannedItem.state (item : ScannedItem) : WatchState :=
    aggregateUserData item.logged item.userData

/-- The last play and the most views that are known of each key. -/
abbrev GroupWatch : Type := String → Option (Option Instant × ℤ)

/-- What an episode adds. -/
def addWatch (known : Option Instant × ℤ) (st : WatchState) : Option Instant × ℤ :=
  (laterPlay known.1 st.lastPlayed, max known.2 st.playCount)

/-- An episode that nobody has watched adds nothing. -/
def ScannedItem.isWatched (item : ScannedItem) : Bool :=
  !(item.state.neverWatched && item.state.playCount = 0)

/-- `_accumulate_consolidated_watch`. -/
def accumulateConsolidatedWatch (cache : SonarrCache) (watch : GroupWatch) (item : ScannedItem) :
    GroupWatch :=
  if item.isWatched then
    (item.watchKeys cache).foldl (fun watch key =>
      Function.update watch key (some (addWatch ((watch key).getD (none, 0)) item.state))) watch
  else watch

/-- The sums of a scan. -/
def consolidatedWatch (cache : SonarrCache) (items : List ScannedItem) : GroupWatch :=
  items.foldl (accumulateConsolidatedWatch cache) fun _ => none

/-- `_apply_consolidated_watch_updates`: the parameters, without the groups that have no date; `iso`
is how the last play of a group is written, with the offset that its date came with. -/
def consolidatedParams (iso : String → Instant → String) (cache : SonarrCache)
    (items : List ScannedItem) : List WatchWrite :=
  let keys := ((items.filter (·.isWatched)).flatMap (·.watchKeys cache)).eraseDups
  keys.filterMap fun key =>
    match consolidatedWatch cache items key with
    | some (some played, count) =>
        some { played := iso key played, viewCount := count, embyId := key }
    | _ => none

/-- A play that is no later than another one. -/
def NotLater (a b : Option Instant) : Prop := ∀ t, a = some t → ∃ u, b = some u ∧ t ≤ u

section Sums

variable {cache : SonarrCache} {items : List ScannedItem} {item : ScannedItem} {key : String}
  {iso : String → Instant → String} {watch : GroupWatch} {a b c : Option Instant}

theorem notLater_none : NotLater none a := nofun

theorem notLater_laterPlay_iff : NotLater (laterPlay a b) c ↔ NotLater a c ∧ NotLater b c := by
  simp only [NotLater, laterPlay]
  cases b with
  | none => simp
  | some u =>
      cases a with
      | none => simp
      | some t =>
          simp only [Option.some.injEq, forall_eq']
          split_ifs with hlt
          · simp only [Option.some.injEq, forall_eq']
            constructor
            · rintro ⟨v, hv, hle⟩
              exact ⟨⟨v, hv, hlt.le.trans hle⟩, v, hv, hle⟩
            · exact fun h => h.2
          · simp only [Option.some.injEq, forall_eq']
            constructor
            · rintro ⟨v, hv, hle⟩
              exact ⟨⟨v, hv, hle⟩, v, hv, (not_lt.1 hlt).trans hle⟩
            · exact fun h => h.1

theorem laterPlay_eq_or : laterPlay a b = a ∨ laterPlay a b = b := by
  cases b with
  | none => exact .inl rfl
  | some u =>
      cases a with
      | none => exact .inr rfl
      | some t =>
          simp only [laterPlay]
          split_ifs
          · exact .inr rfl
          · exact .inl rfl

theorem nodup_watchKeys : (item.watchKeys cache).Nodup := by
  rw [ScannedItem.watchKeys]
  split_ifs
  · exact List.nodup_nil
  · cases cache.lookup item.path with
    | none => exact List.nodup_nil
    | some e =>
        refine List.Nodup.map groupEmbyId_injective ?_
        rw [SonarrCacheEntry.groupKeys]
        cases e.seriesId with
        | none => exact List.nodup_nil
        | some sid => cases e.seasonNumber <;> simp

/-- The sum of a key, or that of nothing. -/
def GroupWatch.sum (watch : GroupWatch) (key : String) : Option Instant × ℤ :=
  (watch key).getD (none, 0)

/-- Setting each of some keys changes those keys. -/
theorem foldl_update {keys : List String} {st : WatchState} (hnodup : keys.Nodup) :
    keys.foldl (fun watch key => Function.update watch key
        (some (addWatch ((watch key).getD (none, 0)) st))) watch key =
      if key ∈ keys then some (addWatch (watch.sum key) st) else watch key := by
  induction keys generalizing watch with
  | nil => rfl
  | cons k keys ih =>
      obtain ⟨hk, hkeys⟩ := List.nodup_cons.1 hnodup
      rw [List.foldl_cons, ih hkeys]
      by_cases heq : key = k
      · subst heq
        simp only [hk, if_false, List.mem_cons_self, if_true, Function.update_self]
        rfl
      · simp only [GroupWatch.sum, Function.update_of_ne heq, List.mem_cons, heq, false_or]

/-- What an item adds to a key. -/
theorem sum_accumulate :
    (accumulateConsolidatedWatch cache watch item).sum key =
      if item.isWatched = true ∧ key ∈ item.watchKeys cache then addWatch (watch.sum key) item.state
      else watch.sum key := by
  rw [accumulateConsolidatedWatch]
  by_cases hwatched : item.isWatched = true
  · rw [if_pos hwatched, GroupWatch.sum, foldl_update nodup_watchKeys]
    by_cases hkey : key ∈ item.watchKeys cache
    · simp [hwatched, hkey]
    · simp [hkey, GroupWatch.sum]
  · simp [hwatched]

/-- The items of a group that somebody has watched. -/
def watchedOf (cache : SonarrCache) (items : List ScannedItem) (key : String) : List ScannedItem :=
  items.filter fun item => item.isWatched && key ∈ item.watchKeys cache

/-- **The sum of a group** is that of its watched items. -/
theorem sum_foldl :
    (items.foldl (accumulateConsolidatedWatch cache) watch).sum key =
      (watchedOf cache items key).foldl (fun known item => addWatch known item.state)
        (watch.sum key) := by
  induction items generalizing watch with
  | nil => rfl
  | cons item items ih =>
      rw [List.foldl_cons, ih, sum_accumulate, watchedOf, watchedOf, List.filter_cons]
      by_cases hadds : item.isWatched = true ∧ key ∈ item.watchKeys cache
      · simp [hadds]
      · rw [if_neg hadds, if_neg (by simpa using hadds)]

theorem notLater_foldl {l : List ScannedItem} {known : Option Instant × ℤ} :
    NotLater (l.foldl (fun known item => addWatch known item.state) known).1 c ↔
      NotLater known.1 c ∧ ∀ item ∈ l, NotLater item.state.lastPlayed c := by
  induction l generalizing known with
  | nil => simp
  | cons item l ih =>
      rw [List.foldl_cons, ih, addWatch, notLater_laterPlay_iff, List.forall_mem_cons, and_assoc]

theorem count_foldl {l : List ScannedItem} {known : Option Instant × ℤ} {n : ℤ} :
    (l.foldl (fun known item => addWatch known item.state) known).2 ≤ n ↔
      known.2 ≤ n ∧ ∀ item ∈ l, item.state.playCount ≤ n := by
  induction l generalizing known with
  | nil => simp
  | cons item l ih =>
      rw [List.foldl_cons, ih, addWatch, max_le_iff, List.forall_mem_cons, and_assoc]

theorem exists_of_foldl {l : List ScannedItem} {known : Option Instant × ℤ} {t : Instant}
    (h : (l.foldl (fun known item => addWatch known item.state) known).1 = some t) :
    known.1 = some t ∨ ∃ item ∈ l, item.state.lastPlayed = some t := by
  induction l generalizing known with
  | nil => exact .inl h
  | cons item l ih =>
      rcases ih h with hknown | ⟨other, hother, hplayed⟩
      · have heither : laterPlay known.1 item.state.lastPlayed = known.1 ∨ _ := laterPlay_eq_or
        rcases heither with heq | heq
        · exact .inl (heq.symm.trans hknown)
        · exact .inr ⟨item, List.mem_cons_self .., heq.symm.trans hknown⟩
      · exact .inr ⟨other, List.mem_cons_of_mem _ hother, hplayed⟩

/-- An item that nobody has watched has no play. -/
theorem unwatched_state (h : ¬ item.isWatched = true) :
    item.state.lastPlayed = none ∧ item.state.playCount = 0 := by
  have hwell : item.state.WellFormed := aggregateUserData_wellFormed _ _
  simp only [ScannedItem.isWatched, Bool.not_eq_true', Bool.not_eq_false, Bool.and_eq_true,
    decide_eq_true_eq] at h
  exact ⟨hwell.played_eq h.1, h.2⟩

theorem playCount_nonneg : 0 ≤ item.state.playCount := by
  have hwell : item.state.WellFormed := aggregateUserData_wellFormed _ _
  cases hnever : item.state.neverWatched with
  | true => exact (hwell.count_eq hnever).ge
  | false => exact (hwell.count_pos hnever).le

theorem forall_mem_watchedOf {P : ScannedItem → Prop}
    (hP : ∀ item, ¬ item.isWatched = true → P item) :
    (∀ item ∈ watchedOf cache items key, P item) ↔
      ∀ item ∈ items, key ∈ item.watchKeys cache → P item := by
  simp only [watchedOf, List.mem_filter, Bool.and_eq_true, decide_eq_true_eq]
  constructor
  · intro h item hitem hkey
    by_cases hwatched : item.isWatched = true
    · exact h item ⟨hitem, hwatched, hkey⟩
    · exact hP item hwatched
  · exact fun h item hmem => h item hmem.1 hmem.2.2

/-- **The last play of a group** is the latest one of its items. -/
theorem latest_consolidatedWatch :
    NotLater ((consolidatedWatch cache items).sum key).1 c ↔
      ∀ item ∈ items, key ∈ item.watchKeys cache → NotLater item.state.lastPlayed c := by
  rw [consolidatedWatch, sum_foldl, notLater_foldl, forall_mem_watchedOf]
  · exact and_iff_right notLater_none
  · intro item hunwatched
    rw [(unwatched_state hunwatched).1]
    exact notLater_none

/-- **The views of a group** are the most that one of its items has. -/
theorem count_consolidatedWatch {n : ℤ} :
    ((consolidatedWatch cache items).sum key).2 ≤ n ↔
      0 ≤ n ∧ ∀ item ∈ items, key ∈ item.watchKeys cache → item.state.playCount ≤ n := by
  rw [consolidatedWatch, sum_foldl, count_foldl]
  refine and_congr_right fun hn => forall_mem_watchedOf fun item hunwatched => ?_
  rw [(unwatched_state hunwatched).2]
  exact hn

/-- The dates of the last plays of a group. -/
def groupPlays (cache : SonarrCache) (items : List ScannedItem) (key : String) : Set Instant :=
  {t | ∃ item ∈ items, key ∈ item.watchKeys cache ∧ item.state.lastPlayed = some t}

theorem sum_eq_some_iff {t : Instant} :
    ((consolidatedWatch cache items).sum key).1 = some t ↔
    IsGreatest (groupPlays cache items key) t := by
  have hmem : ∀ {u}, ((consolidatedWatch cache items).sum key).1 = some u →
      u ∈ groupPlays cache items key := by
    intro u hu
    rw [consolidatedWatch, sum_foldl] at hu
    rcases exists_of_foldl hu with hnone | ⟨item, hitem, hplayed⟩
    · cases hnone
    · simp only [watchedOf, List.mem_filter, Bool.and_eq_true, decide_eq_true_eq] at hitem
      exact ⟨item, hitem.1, hitem.2.2, hplayed⟩
  have hle : ∀ u ∈ groupPlays cache items key,
      ∃ v, ((consolidatedWatch cache items).sum key).1 = some v ∧ u ≤ v := by
    rintro u ⟨item, hitem, hkey, hplayed⟩
    exact latest_consolidatedWatch.1 (fun v hv => ⟨v, hv, le_rfl⟩) item hitem hkey u hplayed
  constructor
  · intro ht
    refine ⟨hmem ht, fun u hu => ?_⟩
    obtain ⟨v, hv, huv⟩ := hle u hu
    rw [ht] at hv
    exact huv.trans (Option.some.inj hv).ge
  · rintro ⟨ht, hgreatest⟩
    obtain ⟨v, hv, htv⟩ := hle t ht
    rw [hv, le_antisymm htv (hgreatest (hmem hv))]

/-- **The writes**: one for each group that has a date. -/
theorem mem_consolidatedParams {write : WatchWrite} :
    write ∈ consolidatedParams iso cache items ↔
      ∃ t, IsGreatest (groupPlays cache items write.embyId) t ∧
        write.played = iso write.embyId t ∧
        write.viewCount = ((consolidatedWatch cache items).sum write.embyId).2 := by
  simp only [consolidatedParams, List.mem_filterMap, List.mem_eraseDups, List.mem_flatMap,
    List.mem_filter, ← sum_eq_some_iff]
  constructor
  · rintro ⟨key, _, hwrite⟩
    cases hsum : consolidatedWatch cache items key with
    | none => simp [hsum] at hwrite
    | some known =>
        obtain ⟨_ | t, n⟩ := known
        · simp [hsum] at hwrite
        · simp only [hsum, Option.some.injEq] at hwrite
          subst hwrite
          exact ⟨t, by simp [GroupWatch.sum, hsum], rfl, by simp [GroupWatch.sum, hsum]⟩
  · rintro ⟨t, ht, hplayed, hcount⟩
    refine ⟨write.embyId, ?_, ?_⟩
    · obtain ⟨item, hitem, hkey, hlast⟩ := (sum_eq_some_iff.1 ht).1
      refine ⟨item, ⟨hitem, ?_⟩, hkey⟩
      by_contra hunwatched
      rw [(unwatched_state hunwatched).1] at hlast
      cases hlast
    · cases hsum : consolidatedWatch cache items write.embyId with
      | none => simp [GroupWatch.sum, hsum] at ht
      | some known =>
          obtain ⟨played, n⟩ := known
          simp only [GroupWatch.sum, hsum, Option.getD_some] at ht hcount
          subst ht
          simp [← hplayed, ← hcount]

theorem nodup_consolidatedParams :
    ((consolidatedParams iso cache items).map (·.embyId)).Nodup := by
  rw [consolidatedParams, List.map_filterMap]
  refine (nodup_eraseDups _).filterMap fun key key' id hid hid' => ?_
  have hkey : ∀ {k}, id ∈ Option.map (·.embyId) (match consolidatedWatch cache items k with
      | some (some played, count) =>
          some ({ played := iso k played, viewCount := count, embyId := k } : WatchWrite)
      | _ => none) → id = k := by
    intro k h
    split at h
    · exact (Option.some.inj h).symm
    · cases h
  exact (hkey hid).symm.trans (hkey hid')

end Sums

/-! ### The entry of a complete group -/

section Entries

variable {parse : String → Option ℤ} {eps eligible : List QueueEntry} {cache : SonarrCache}
  {unit : DeletionUnit} {entry : QueueEntry} {key : GroupKey} {a : Option Instant}

/-- One round of `_group_watch_state`. -/
def laterEntry (parse : String → Option ℤ) (best : Option (String × ℤ)) (ep : QueueEntry) :
    Option (String × ℤ) :=
  match truthyText ep.lastPlayed with
  | none => best
  | some raw =>
      match parse raw with
      | none => best
      | some dt =>
          match best with
          | none => some (raw, dt)
          | some b => if b.2 < dt then some (raw, dt) else best

theorem groupWatchState_eq : groupWatchState parse eps =
    ((eps.foldl (laterEntry parse) none).map Prod.fst,
      eps.foldl (fun n ep => max n ep.viewCount) 0) :=
  rfl

/-- What a round keeps is read as the moment that is kept with it. -/
theorem parse_laterEntry {best : Option (String × ℤ)} {ep : QueueEntry}
    (h : ∀ b ∈ best, parse b.1 = some b.2) :
    ∀ b ∈ laterEntry parse best ep, parse b.1 = some b.2 := by
  rw [laterEntry]
  split
  · exact h
  · split
    · exact h
    · next raw _ _ dt hdt =>
        have hnew : ∀ b ∈ some (raw, dt), parse b.1 = some b.2 := by
          rintro b ⟨⟩
          exact hdt
        split
        · exact hnew
        · split_ifs
          · exact hnew
          · exact h

/-- A play is no later than what a round keeps if it is no later than one of the two. -/
theorem le_laterEntry_iff {best : Option (String × ℤ)} {ep : QueueEntry} {t : ℤ} :
    (∃ b ∈ laterEntry parse best ep, t ≤ b.2) ↔
      (∃ b ∈ best, t ≤ b.2) ∨ ∃ u, (truthyText ep.lastPlayed).bind parse = some u ∧ t ≤ u := by
  rw [laterEntry]
  cases htext : truthyText ep.lastPlayed with
  | none => simp
  | some raw =>
      cases hparse : parse raw with
      | none => simp [hparse]
      | some dt =>
          cases best with
          | none => simp [hparse]
          | some b =>
              simp only [Option.bind_some, hparse, Option.some.injEq, exists_eq_left',
                Option.mem_def]
              split_ifs with hlater
              · simp only [Option.some.injEq, exists_eq_left']
                constructor
                · exact .inr
                · rintro (h | h)
                  · exact h.trans hlater.le
                  · exact h
              · simp only [Option.some.injEq, exists_eq_left']
                constructor
                · exact .inl
                · rintro (h | h)
                  · exact h
                  · exact h.trans (not_lt.1 hlater)

theorem parse_foldl_laterEntry : ∀ b ∈ eps.foldl (laterEntry parse) none, parse b.1 = some b.2 := by
  have hfold : ∀ best : Option (String × ℤ), (∀ b ∈ best, parse b.1 = some b.2) →
      ∀ b ∈ eps.foldl (laterEntry parse) best, parse b.1 = some b.2 := by
    induction eps with
    | nil => exact fun _ h => h
    | cons ep eps ih => exact fun best h => ih _ (parse_laterEntry h)
  exact hfold none nofun

theorem le_foldl_laterEntry_iff {t : ℤ} :
    (∃ b ∈ eps.foldl (laterEntry parse) none, t ≤ b.2) ↔
      ∃ ep ∈ eps, ∃ u, (truthyText ep.lastPlayed).bind parse = some u ∧ t ≤ u := by
  have hfold : ∀ best : Option (String × ℤ), (∃ b ∈ eps.foldl (laterEntry parse) best, t ≤ b.2) ↔
      (∃ b ∈ best, t ≤ b.2) ∨
        ∃ ep ∈ eps, ∃ u, (truthyText ep.lastPlayed).bind parse = some u ∧ t ≤ u := by
    induction eps with
    | nil => simp
    | cons ep eps ih =>
        intro best
        rw [List.foldl_cons, ih, le_laterEntry_iff, or_assoc]
        simp only [List.mem_cons, exists_eq_or_imp]
  rw [hfold]
  simp

/-- **The last play of an entry** is the latest one of its episodes. -/
theorem notLater_groupWatchState_iff (heps : eps ≠ []) :
    NotLater a ((groupWatchState parse eps).1.bind parse) ↔
      ∃ ep ∈ eps, NotLater a ((truthyText ep.lastPlayed).bind parse) := by
  cases a with
  | none =>
      obtain ⟨ep, hep⟩ := List.exists_mem_of_ne_nil eps heps
      exact iff_of_true notLater_none ⟨ep, hep, notLater_none⟩
  | some t =>
      have hplay : NotLater (some t) ((groupWatchState parse eps).1.bind parse) ↔
          ∃ b ∈ eps.foldl (laterEntry parse) none, t ≤ b.2 := by
        rw [groupWatchState_eq]
        cases hbest : eps.foldl (laterEntry parse) none with
        | none => simp [NotLater]
        | some b =>
            have hparse : parse b.1 = some b.2 := parse_foldl_laterEntry b hbest
            simp [NotLater, hparse]
      rw [hplay, le_foldl_laterEntry_iff]
      simp only [NotLater, Option.some.injEq, forall_eq']

/-- **The views of an entry** are the most that one of its episodes has. -/
theorem le_groupWatchState_iff {n : ℤ} (heps : eps ≠ []) (hviews : ∀ ep ∈ eps, 0 ≤ ep.viewCount) :
    n ≤ (groupWatchState parse eps).2 ↔ ∃ ep ∈ eps, n ≤ ep.viewCount := by
  have hfold : ∀ m : ℤ, n ≤ eps.foldl (fun n ep => max n ep.viewCount) m ↔
      n ≤ m ∨ ∃ ep ∈ eps, n ≤ ep.viewCount := by
    clear heps hviews
    induction eps with
    | nil => simp
    | cons ep eps ih =>
        intro m
        rw [List.foldl_cons, ih, le_max_iff, or_assoc]
        simp only [List.mem_cons, exists_eq_or_imp]
  rw [groupWatchState_eq, hfold, or_iff_right_of_imp]
  intro hn
  obtain ⟨ep, hep⟩ := List.exists_mem_of_ne_nil eps heps
  exact ⟨ep, hep, hn.trans (hviews ep hep)⟩

/-- The entry of a complete group. -/
theorem completeEntry_eq_some_iff :
    completeEntry parse cache (key, eps) = some entry ↔
      (0 < cachedTotal cache key ∧ eps.length = cachedTotal cache key) ∧
        consolidatedEntry parse cache key eps = some entry := by
  rw [completeEntry]
  split_ifs with hcomplete
  · exact (and_iff_right hcomplete).symm
  · exact iff_of_false not_false fun h => hcomplete h.1

theorem embyId_consolidatedEntry (h : consolidatedEntry parse cache key eps = some entry) :
    entry.embyId = groupEmbyId key := by
  obtain ⟨anchor, _, rfl⟩ := Option.map_eq_some_iff.1 h
  rfl

/-- Entries with different identifiers are inserted unless they are queued. -/
theorem insertNew_eq_filter {ids : Option (List String)} {es : List QueueEntry}
    (hnodup : (es.map (·.embyId)).Nodup) :
    insertNew ids es = es.filter fun e => e.embyId ∉ ids.getD [] := by
  induction es generalizing ids with
  | nil => rfl
  | cons e es ih =>
      obtain ⟨he, hes⟩ := List.nodup_cons.1 hnodup
      cases ids with
      | none =>
          rw [insertNew, ih hes]
          simp
      | some ids =>
          rw [insertNew, List.filter_cons, Option.getD_some]
          split_ifs with hqueued hnew hnew
          · exact absurd hqueued (of_decide_eq_true hnew)
          · exact ih hes
          · rw [ih hes]
            refine congrArg _ (List.filter_congr fun other hother => ?_)
            have hne : other.embyId ≠ e.embyId := by
              intro heq
              exact he (List.mem_map.2 ⟨other, hother, heq⟩)
            simp [hne]
          · exact absurd hqueued (by simpa using hnew)

/-- The entries of the complete groups have different identifiers. -/
theorem nodup_completeEntries :
    (((groups unit eligible).filterMap (completeEntry parse cache)).map (·.embyId)).Nodup := by
  rw [groups, List.filterMap_map, List.map_filterMap]
  refine (nodup_eraseDups _).filterMap fun key key' id hid hid' => groupEmbyId_injective ?_
  have hkey : ∀ {k : GroupKey}, id ∈ Option.map (·.embyId)
      ((completeEntry parse cache ∘ fun key => (key, groupOf unit eligible key)) k) →
        id = groupEmbyId k := by
    intro k h
    obtain ⟨entry, hentry, rfl⟩ := Option.map_eq_some_iff.1 h
    exact embyId_consolidatedEntry (completeEntry_eq_some_iff.1 hentry).2
  exact (hkey hid).symm.trans (hkey hid')

/-- **The entries that are inserted** are those of the complete groups that are not queued. -/
theorem mem_consolidateAndInsert_iff {ids : Option (List String)} :
    entry ∈ consolidateAndInsert parse eligible cache unit ids ↔
      ∃ key, (0 < cachedTotal cache key ∧
          (groupOf unit eligible key).length = cachedTotal cache key) ∧
        groupEmbyId key ∉ ids.getD [] ∧
        consolidatedEntry parse cache key (groupOf unit eligible key) = some entry := by
  rw [consolidateAndInsert, insertNew_eq_filter nodup_completeEntries, List.mem_filter,
    List.mem_filterMap, decide_eq_true_eq]
  constructor
  · rintro ⟨⟨⟨key, eps⟩, hgroup, hentry⟩, hnew⟩
    obtain ⟨_, _, heq⟩ := List.mem_map.1 hgroup
    obtain ⟨rfl, rfl⟩ := Prod.mk.inj heq
    obtain ⟨hcomplete, hentry⟩ := completeEntry_eq_some_iff.1 hentry
    exact ⟨_, hcomplete, embyId_consolidatedEntry hentry ▸ hnew, hentry⟩
  · rintro ⟨key, hcomplete, hnew, hentry⟩
    refine ⟨⟨(key, groupOf unit eligible key), ?_, completeEntry_eq_some_iff.2 ⟨hcomplete, hentry⟩⟩,
      embyId_consolidatedEntry hentry ▸ hnew⟩
    have hne : groupOf unit eligible key ≠ [] := by
      intro hnil
      rw [hnil] at hcomplete
      exact hcomplete.1.ne hcomplete.2
    obtain ⟨ep, hep⟩ := List.exists_mem_of_ne_nil _ hne
    obtain ⟨hep, hkey⟩ := List.mem_filter.1 hep
    exact List.mem_map.2 ⟨key, List.mem_eraseDups.2 (List.mem_filterMap.2
      ⟨ep, hep, by simpa using hkey⟩), rfl⟩

end Entries

end Hygie
