/-
**Whether an item was watched does not depend on who is asked first.**

The plays of an item are collected from all users, and the plays of a group from all its episodes.
A count is the largest one, a date the latest one that can be read, and an item counts as watched as
soon as one user has watched it.  These are joins: of a product of the moments (with none at the
bottom), the counts and the truth values.  So users and episodes may come in any order and more than
once, and another user or episode can only add plays.

A moment is what `parse_iso_dt` reads.  Of two texts for the same moment a group keeps the first.

Main definitions:

* `PlaySources`, `PlaySources.aggregate` — `_aggregate_user_data`, with the caches that it reads;
* `groupPlay` — the result of `_group_watch_state`, its date read as a moment;
* `WatchState.Le`, `GroupPlayLe` — a result that loses nothing.

Main results:

* `level_aggregateUserData`, `level_groupPlay` — both results are joins;
* `watch_aggregates` — **the laws of both**.
-/

import Hygie.Aggregates
import Hygie.GroupSums
import Mathlib.Order.WithBot

set_option relaxedAutoImplicit false
set_option autoImplicit false

namespace Hygie

/-! ### The caches -/

/-- The entry `UserData` of an item, as a media server gives it. -/
structure UserItemData where
  playCount : Option ℤ := none
  played : Option Bool := none
  lastPlayedDate : Option String := none
  deriving DecidableEq, Repr

/-- What `_aggregate_user_data` reads. -/
structure PlaySources where
  parseIsoDt : String → Option Instant
  /-- `user_data_cache`: the items of each user. -/
  userDataCache : Option (List (String × List (String × UserItemData)))
  /-- `activity_log`: the last stop of an item. -/
  activityLog : Option (List (String × String))
  /-- `get_user_data`, which is asked where there is no cache. -/
  getUserData : String → String → Option UserItemData

namespace PlaySources

variable (s : PlaySources)

/-- A text that may be empty or missing, as a date. -/
def dateText (text : Option String) : DateText :=
  match truthyText text with
  | none => .absent
  | some raw =>
      match s.parseIsoDt raw with
      | none => .unreadable
      | some t => .at t

/-- What a user's data say about an item; a missing entry is like an empty one. -/
def userData (embyId uid : String) : UserData :=
  let found := match s.userDataCache with
    | some cache => ((cache.lookup uid).getD []).lookup embyId
    | none => s.getUserData uid embyId
  let ud := found.getD {}
  { playCount := ud.playCount.getD 0
    played := ud.played.getD false
    lastPlayedDate := s.dateText ud.lastPlayedDate }

/-- The entry of the activity log. -/
def logged (embyId : String) : DateText := s.dateText (s.activityLog.bind (·.lookup embyId))

/-- `_aggregate_user_data`. -/
def aggregate (embyId : String) (userIds : List String) : WatchState :=
  aggregateUserData (s.logged embyId) (userIds.map (s.userData embyId))

end PlaySources

/-- `_group_watch_state`, with the date read as a moment. -/
def groupPlay (parseIsoDt : String → Option Instant) (eps : List QueueEntry) :
    Option Instant × ℤ :=
  let watched := groupWatchState parseIsoDt eps
  (watched.1.bind parseIsoDt, watched.2)

/-! ### Results that lose nothing -/

/-- The count is no lower, the last play neither earlier nor absent, and what was watched is
watched. -/
structure WatchState.Le (st st' : WatchState) : Prop where
  playCount_le : st.playCount ≤ st'.playCount
  lastPlayed_le : NotLater st.lastPlayed st'.lastPlayed
  watched : st.neverWatched = false → st'.neverWatched = false

/-- The count is no lower, and the last play neither earlier nor absent. -/
structure GroupPlayLe (r r' : Option Instant × ℤ) : Prop where
  viewCount_le : r.2 ≤ r'.2
  lastPlayed_le : NotLater r.1 r'.1

/-! ### Plays as a join-semilattice -/

/-- A moment, or the bottom where there is none. -/
def playLevel : Option Instant → WithBot ℤ
  | none => ⊥
  | some t => (t : ℤ)

/-- The plays of an item, larger where more was played. -/
def WatchState.level (st : WatchState) : WithBot ℤ × ℤ × Bool :=
  (playLevel st.lastPlayed, st.playCount, !st.neverWatched)

/-- What a user contributes: a date counts only where something was played. -/
def UserData.level (logged : DateText) (ud : UserData) : WithBot ℤ × ℤ × Bool :=
  if ud.played = true ∨ 0 < ud.playCount then
    (playLevel (ud.lastPlay logged), ud.effectiveCount, true)
  else (⊥, ud.effectiveCount, false)

/-- The plays of a group. -/
def groupLevel (r : Option Instant × ℤ) : WithBot ℤ × ℤ := (playLevel r.1, r.2)

/-- What an episode contributes. -/
def episodeLevel (parseIsoDt : String → Option Instant) (ep : QueueEntry) : WithBot ℤ × ℤ :=
  (playLevel ((truthyText ep.lastPlayed).bind parseIsoDt), ep.viewCount)

section Levels

variable {a b : Option Instant} {st st' : WatchState} {logged : DateText} {ud : UserData}
  {users : List UserData} {parse : String → Option Instant} {ep : QueueEntry}
  {eps : List QueueEntry}

theorem playLevel_injective : Function.Injective playLevel := by
  intro a b h
  cases a with
  | none =>
      cases b with
      | none => rfl
      | some u => exact absurd h (WithBot.bot_ne_coe)
  | some t =>
      cases b with
      | none => exact absurd h (WithBot.coe_ne_bot)
      | some u => exact congrArg some (WithBot.coe_inj.1 h)

theorem notLater_iff_playLevel_le : NotLater a b ↔ playLevel a ≤ playLevel b := by
  cases a with
  | none => exact iff_of_true notLater_none bot_le
  | some t =>
      cases b with
      | none => simp [NotLater, playLevel]
      | some u => simp [NotLater, playLevel]

/-- The later of two plays is their join. -/
theorem playLevel_laterPlay : playLevel (laterPlay a b) = playLevel a ⊔ playLevel b := by
  cases b with
  | none => simp [laterPlay, playLevel]
  | some u =>
      cases a with
      | none => simp [laterPlay, playLevel]
      | some t =>
          -- the earlier of two equal plays is kept, which is the same moment
          simp only [laterPlay, playLevel]
          split_ifs with hlt
          · exact (sup_eq_right.2 (WithBot.coe_le_coe.2 hlt.le)).symm
          · exact (sup_eq_left.2 (WithBot.coe_le_coe.2 (not_lt.1 hlt))).symm

theorem WatchState.level_injective : Function.Injective WatchState.level := by
  rintro ⟨count, never, last⟩ ⟨count', never', last'⟩ h
  simp only [level, Prod.mk.injEq] at h
  obtain ⟨hlast, rfl, hnever⟩ := h
  obtain rfl := playLevel_injective hlast
  obtain rfl := Bool.not_inj hnever
  rfl

theorem WatchState.le_iff_level_le : st.Le st' ↔ st.level ≤ st'.level := by
  have hwatched : (st.neverWatched = false → st'.neverWatched = false) ↔
      (!st.neverWatched) ≤ !st'.neverWatched := by
    cases st.neverWatched <;> cases st'.neverWatched <;> decide
  rw [level, level, Prod.mk_le_mk, Prod.mk_le_mk, ← notLater_iff_playLevel_le, ← hwatched]
  constructor
  · intro h
    exact ⟨h.lastPlayed_le, h.playCount_le, h.watched⟩
  · rintro ⟨hlast, hcount, hseen⟩
    exact ⟨hcount, hlast, hseen⟩

/-- One round of `_aggregate_user_data` is a join. -/
theorem level_addUserData : (addUserData logged st ud).level = st.level ⊔ ud.level logged := by
  unfold addUserData UserData.level WatchState.level
  split_ifs with hwatched
  · simp [playLevel_laterPlay]
  · simp

/-- **The plays of an item** are the join of what the users contribute. -/
theorem level_aggregateUserData : (aggregateUserData logged users).level =
    users.foldl (fun b ud => b ⊔ ud.level logged) (⊥, 0, false) :=
  (List.foldl_hom WatchState.level fun _ _ => level_addUserData.symm).symm

theorem groupLevel_injective : Function.Injective groupLevel := by
  rintro ⟨last, count⟩ ⟨last', count'⟩ h
  simp only [groupLevel, Prod.mk.injEq] at h
  obtain ⟨hlast, rfl⟩ := h
  obtain rfl := playLevel_injective hlast
  rfl

theorem groupPlayLe_iff_level_le {r r' : Option Instant × ℤ} :
    GroupPlayLe r r' ↔ groupLevel r ≤ groupLevel r' := by
  rw [groupLevel, groupLevel, Prod.mk_le_mk, ← notLater_iff_playLevel_le]
  constructor
  · intro h
    exact ⟨h.lastPlayed_le, h.viewCount_le⟩
  · rintro ⟨hlast, hcount⟩
    exact ⟨hcount, hlast⟩

/-- A round of `_group_watch_state` keeps the later play. -/
theorem map_laterEntry {best : Option (String × ℤ)} :
    (laterEntry parse best ep).map Prod.snd =
      laterPlay (best.map Prod.snd) ((truthyText ep.lastPlayed).bind parse) := by
  rw [laterEntry]
  cases htext : truthyText ep.lastPlayed with
  | none => rfl
  | some raw =>
      cases hparse : parse raw with
      | none => simp [hparse, laterPlay]
      | some dt =>
          cases best with
          | none => simp [hparse, laterPlay]
          | some b =>
              simp only [Option.bind_some, hparse, Option.map_some, laterPlay]
              split_ifs <;> rfl

/-- The text that a group keeps is read as the latest of the moments. -/
theorem groupPlay_eq : groupPlay parse eps =
    (eps.foldl (fun last ep => laterPlay last ((truthyText ep.lastPlayed).bind parse)) none,
      eps.foldl (fun n ep => max n ep.viewCount) 0) := by
  have hread : ((eps.foldl (laterEntry parse) none).map Prod.fst).bind parse =
      (eps.foldl (laterEntry parse) none).map Prod.snd := by
    cases hbest : eps.foldl (laterEntry parse) none with
    | none => rfl
    | some b => exact parse_foldl_laterEntry b hbest
  have hfold : eps.foldl (fun last ep => laterPlay last ((truthyText ep.lastPlayed).bind parse))
      none = (eps.foldl (laterEntry parse) none).map Prod.snd :=
    @List.foldl_hom _ _ _ (Option.map Prod.snd) (laterEntry parse) _ eps none
      fun _ _ => map_laterEntry.symm
  rw [groupPlay, groupWatchState_eq, hfold, ← hread]

/-- **The plays of a group** are the join of what its episodes contribute. -/
theorem level_groupPlay : groupLevel (groupPlay parse eps) =
    eps.foldl (fun b ep => b ⊔ episodeLevel parse ep) (⊥, 0) := by
  -- both loops at once, from any pair
  have hpairs : ∀ r : Option Instant × ℤ,
      groupLevel (eps.foldl (fun last ep => laterPlay last ((truthyText ep.lastPlayed).bind parse))
        r.1, eps.foldl (fun n ep => max n ep.viewCount) r.2) =
      eps.foldl (fun b ep => b ⊔ episodeLevel parse ep) (groupLevel r) := by
    induction eps with
    | nil => exact fun _ => rfl
    | cons ep eps ih =>
        intro r
        have hround : groupLevel (laterPlay r.1 ((truthyText ep.lastPlayed).bind parse),
            max r.2 ep.viewCount) = groupLevel r ⊔ episodeLevel parse ep := by
          rw [groupLevel, playLevel_laterPlay]
          rfl
        rw [List.foldl_cons, List.foldl_cons, List.foldl_cons, ← hround]
        exact ih (_, _)
  rw [groupPlay_eq]
  exact hpairs (none, 0)

end Levels

/-- **Users and episodes may come in any order and more than once, and another one can only add
plays.** -/
theorem watch_aggregates :
    (∀ (s : PlaySources) (embyId : String), Aggregates WatchState.Le (s.aggregate embyId)) ∧
      ∀ parse : String → Option Instant, Aggregates GroupPlayLe (groupPlay parse) := by
  constructor
  · intro s embyId
    have hlevel : ∀ userIds, (s.aggregate embyId userIds).level = userIds.foldl
        (fun b uid => b ⊔ (s.userData embyId uid).level (s.logged embyId)) (⊥, 0, false) := by
      intro userIds
      rw [PlaySources.aggregate, level_aggregateUserData, List.foldl_map]
    exact Aggregates.of_level WatchState.level_injective (fun _ _ => WatchState.le_iff_level_le)
      hlevel
  · intro parse
    exact Aggregates.of_level groupLevel_injective (fun _ _ => groupPlayLe_iff_level_le)
      (fun _ => level_groupPlay)

end Hygie
