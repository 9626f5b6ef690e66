/-
**Reading the watch state page by page.**

What the users have played is read from a media server in pages of five hundred records:
`get_library_user_data` reads the user data of a library, `get_play_activity` the activity log.  A
page tells how many records there are in all, and a reader goes on until it has read as many, or
until a page is empty.  A failed request, a status other than 200, an open circuit breaker and a
body that is no JSON raise `MediaServerUnreachable`; a body that is JSON of another shape raises
something else.

A record that is missing from the result means that an item was never played.  So a reader should
give all records that the server has announced, or raise: it does, but for an empty page before the
announced number, after which it returns what it has, and for a server that announces more and more.

From the log, the largest text among the dates of the stops of an item is kept as the latest one.

Main definitions:

* `PageReply`, `readPages` — the answer to a request, and the loop of the readers;
* `getLibraryUserData`, `getPlayActivity` — the two readers;
* `CompleteOrRaises`, `EndsProperly` — the law of a reader, and the replies on which it holds;
* `LatestPlay`, `LargestIsLatest` — the law of the log, and the dates for which it holds.

Main results:

* `readPages_eq_some_iff` — **what a reader returns or raises**;
* `completeOrRaises_iff` — **exactly when the readers are complete or raise**;
* `latestPlay_iff` — **exactly when the latest play is returned**;
* `MediaServerState.getPlayActivity_eq` — **the log of a server that holds one**.
-/

import Hygie.IsoDates
import Hygie.LegacyConditions
import Hygie.Loops
import Hygie.WatchGuard

set_option relaxedAutoImplicit false
set_option autoImplicit false

namespace Hygie

/-! ### Pages -/

/-- A field of a JSON object. -/
inductive JsonField (α : Type)
  | missing
  | value (a : α)
  | illTyped
  deriving DecidableEq, Repr

/-- `body.get(key, default)`; nothing where the use of what it gives raises. -/
def JsonField.getD {α : Type} (default : α) : JsonField α → Option α
  | missing => some default
  | value a => some a
  | illTyped => none

/-- The body of an answer. -/
inductive PageBody (α : Type)
  | notJson
  | notObject
  | object (items : JsonField (List α)) (total : JsonField ℤ)
  deriving DecidableEq, Repr

/-- What comes of a request behind the circuit breaker. -/
inductive PageReply (α : Type)
  | circuitOpen
  | exception
  | answered (status : ℕ) (body : PageBody α)
  deriving DecidableEq, Repr

/-- The reason that `MediaServerUnreachable` gives. -/
inductive Unreachable
  | notConfigured
  | breakerOpen
  | status (code : ℕ)
  | fetchFailed
  deriving DecidableEq, Repr

/-- What a reader raises: `MediaServerUnreachable`, or an exception from outside of its `try`. -/
inductive ReadError
  | unreachable (cause : Unreachable)
  | uncaught
  deriving DecidableEq, Repr

section Pages

variable {α β : Type} (valid : α → Bool) (add : β → α → β) (replies : ℕ → PageReply α) (empty : β)

/-- A page is added to the result; `start` is the number of records read before it. -/
def readBody (start : ℕ) (result : β) : PageBody α → Turn (ℕ × β) (Except ReadError β)
  | .notJson => .stop (.error (.unreachable .fetchFailed))
  | .notObject => .stop (.error .uncaught)
  | .object items total =>
      match items.getD [] with
      | none => .stop (.error .uncaught)
      | some items =>
          if items.all valid then
            let start := start + items.length
            let result := items.foldl add result
            -- the total is not looked at after an empty page
            if items.isEmpty then .stop (.ok result)
            else
              match total.getD 0 with
              | none => .stop (.error .uncaught)
              | some total => if total ≤ start then .stop (.ok result) else .next (start, result)
          else .stop (.error .uncaught)

/-- One round of the loop. -/
def readPage (k : ℕ) (state : ℕ × β) : Turn (ℕ × β) (Except ReadError β) :=
  match replies k with
  | .circuitOpen => .stop (.error (.unreachable .breakerOpen))
  | .exception => .stop (.error (.unreachable .fetchFailed))
  | .answered status body =>
      if status = 200 then readBody valid add state.1 state.2 body
      else .stop (.error (.unreachable (.status status)))

/-- The loop; nothing if it needs more rounds. -/
def readPages (fuel : ℕ) : Option (Except ReadError β) :=
  loop (readPage valid add replies) fuel 0 (0, empty)

end Pages

/-- An item with the data of one user; an absent object is empty. -/
structure UserDataItem where
  id : Option String
  userData : UserData := {}
  deriving DecidableEq, Repr

/-- The data of one user by item. -/
abbrev UserDataMap : Type := String → Option UserData

/-- `result[item["Id"]] = item.get("UserData") or {}`. -/
def addUserDataItem (result : UserDataMap) (item : UserDataItem) : UserDataMap :=
  match item.id with
  | some id => Function.update result id (some item.userData)
  | none => result

/-- `get_library_user_data`. -/
def getLibraryUserData (client : String × String) (replies : ℕ → PageReply UserDataItem)
    (fuel : ℕ) : Option (Except ReadError UserDataMap) :=
  if Contactable client then readPages (·.id.isSome) addUserDataItem replies (fun _ => none) fuel
  else some (.error (.unreachable .notConfigured))

/-- `get_play_activity`. -/
def getPlayActivity (client : String × String) (replies : ℕ → PageReply LogEntry) (fuel : ℕ) :
    Option (Except ReadError Activity) :=
  if Contactable client then readPages (fun _ => true) addEntry replies (fun _ => none) fuel
  else some (.ok fun _ => none)

/-! ### What a reply says -/

namespace PageReply

variable {α : Type}

/-- The records of a page. -/
def records : PageReply α → List α
  | answered _ (.object items _) => (items.getD []).getD []
  | _ => []

/-- The number of all records, as a page announces it. -/
def announced : PageReply α → ℤ
  | answered _ (.object _ total) => (total.getD 0).getD 0
  | _ => 0

/-- A request that fails. -/
def Fails : PageReply α → Prop
  | answered status body => status ≠ 200 ∨ body = .notJson
  | _ => True

/-- A page of the shape that is expected. -/
def Readable (valid : α → Bool) : PageReply α → Prop
  | answered status (.object items total) =>
      status = 200 ∧ items ≠ .illTyped ∧ ((items.getD []).getD []).all valid = true ∧
        ((items.getD []).getD [] ≠ [] → total ≠ .illTyped)
  | _ => False

end PageReply

section Laws

variable {α β : Type} (valid : α → Bool) (add : β → α → β) (replies : ℕ → PageReply α) (empty : β)

/-- The records of the first pages. -/
def recordsOf (n : ℕ) : List α := (List.range n).flatMap fun k => (replies k).records

/-- After this page the reader goes on. -/
def Continues (k : ℕ) : Prop :=
  (replies k).Readable valid ∧ (replies k).records ≠ [] ∧
    (recordsOf replies (k + 1)).length < (replies k).announced

/-- The reader sends `n + 1` requests, and the last of them makes it stop. -/
def StopsAt (n : ℕ) (outcome : Except ReadError β) : Prop :=
  ∃ state, reached (readPage valid add replies) (0, empty) n = some state ∧
    readPage valid add replies n state = .stop outcome

/-- The result is made of the records of all pages asked for, and these are as many as the last page
announces, or more. -/
def MadeOfAnnounced (result : β) : Prop :=
  ∃ n, StopsAt valid add replies empty n (.ok result) ∧ (∀ k ≤ n, (replies k).Readable valid) ∧
    result = (recordsOf replies (n + 1)).foldl add empty ∧
    (replies n).announced ≤ (recordsOf replies (n + 1)).length

/-- **The law of a reader**: it stops, and raises `MediaServerUnreachable` or returns a complete
result. -/
def CompleteOrRaises (read : ℕ → Option (Except ReadError β)) (complete : β → Prop) : Prop :=
  (∃ fuel outcome, read fuel = some outcome) ∧
    ∀ fuel outcome, read fuel = some outcome →
      (∃ cause, outcome = .error (.unreachable cause)) ∨ ∃ result, outcome = .ok result ∧
      complete result

/-- **The replies on which the law holds**: after pages that are not empty and announce more records
than have been read, a request fails, or a page announces no more than have been read. -/
def EndsProperly : Prop :=
  ∃ n, (∀ k < n, Continues valid replies k) ∧
    ((replies n).Fails ∨
      (replies n).Readable valid ∧ (replies n).announced ≤ (recordsOf replies (n + 1)).length)

end Laws

section Reading

variable {α β : Type} {valid : α → Bool} {add : β → α → β} {replies : ℕ → PageReply α} {empty : β}
  {k n start fuel : ℕ} {result : β} {outcome : Except ReadError β}

theorem recordsOf_succ :
    recordsOf replies (n + 1) = recordsOf replies n ++ (replies n).records := by
  simp [recordsOf, List.range_succ]

theorem PageReply.Readable.not_fails {reply : PageReply α} (h : reply.Readable valid) :
    ¬ reply.Fails := by
  rcases reply with _ | _ | ⟨status, _ | _ | ⟨items, total⟩⟩
  · exact h.elim
  · exact h.elim
  · exact h.elim
  · exact h.elim
  · rintro (hstatus | hbody)
    · exact hstatus h.1
    · cases hbody

/-- **What a round does.** -/
theorem readPage_cases {state : ℕ × β} :
    ((replies k).Fails ∧
        ∃ cause, readPage valid add replies k state = .stop (.error (.unreachable cause))) ∨
      (¬ (replies k).Fails ∧ ¬ (replies k).Readable valid ∧
        readPage valid add replies k state = .stop (.error .uncaught)) ∨
      ((replies k).Readable valid ∧
        ((replies k).records = [] ∨
          (replies k).announced ≤ (state.1 + (replies k).records.length : ℕ)) ∧
        readPage valid add replies k state = .stop (.ok ((replies k).records.foldl add state.2))) ∨
      ((replies k).Readable valid ∧ (replies k).records ≠ [] ∧
        ((state.1 + (replies k).records.length : ℕ) : ℤ) < (replies k).announced ∧
        readPage valid add replies k state =
          .next (state.1 + (replies k).records.length, (replies k).records.foldl add state.2)) := by
  rw [readPage]
  cases replies k with
  | circuitOpen => exact .inl ⟨trivial, _, rfl⟩
  | exception => exact .inl ⟨trivial, _, rfl⟩
  | answered status body =>
      by_cases hstatus : status = 200
      · rcases body with _ | _ | ⟨items, total⟩
        · exact .inl ⟨.inr rfl, _, if_pos hstatus⟩
        · exact .inr (.inl ⟨by simp [PageReply.Fails, hstatus], id, if_pos hstatus⟩)
        · cases items <;> cases total <;>
            simp only [PageReply.Fails, PageReply.Readable, PageReply.records, PageReply.announced,
              readBody, JsonField.getD, Option.getD_some, Option.getD_none, List.isEmpty_iff] <;>
            split_ifs <;> simp_all
      · exact .inl ⟨.inl hstatus, _, if_neg hstatus⟩

/-- **What a round does** after the rounds before it. -/
theorem readPage_after (valid : α → Bool) (add : β → α → β) (replies : ℕ → PageReply α) (empty : β)
    (n : ℕ) :
    ((replies n).Fails ∧ ∃ cause, readPage valid add replies n
        ((recordsOf replies n).length, (recordsOf replies n).foldl add empty) =
          .stop (.error (.unreachable cause))) ∨
      (¬ (replies n).Fails ∧ ¬ (replies n).Readable valid ∧ readPage valid add replies n
        ((recordsOf replies n).length, (recordsOf replies n).foldl add empty) =
          .stop (.error .uncaught)) ∨
      ((replies n).Readable valid ∧ ((replies n).records = [] ∨
          (replies n).announced ≤ (recordsOf replies (n + 1)).length) ∧ readPage valid add replies n
        ((recordsOf replies n).length, (recordsOf replies n).foldl add empty) =
          .stop (.ok ((recordsOf replies (n + 1)).foldl add empty))) ∨
      (Continues valid replies n ∧ readPage valid add replies n
        ((recordsOf replies n).length, (recordsOf replies n).foldl add empty) =
          .next ((recordsOf replies (n + 1)).length,
            (recordsOf replies (n + 1)).foldl add empty)) := by
  simp only [Continues, recordsOf_succ, List.length_append, List.foldl_append, and_assoc]
  exact readPage_cases

/-- The rounds that are reached. -/
theorem reached_readPage_iff {state : ℕ × β} :
    reached (readPage valid add replies) (0, empty) n = some state ↔
      (∀ k < n, Continues valid replies k) ∧
        state = ((recordsOf replies n).length, (recordsOf replies n).foldl add empty) := by
  induction n generalizing state with
  | zero => simp [reached, recordsOf, eq_comm]
  | succ n ih =>
      rw [reached_succ]
      have hround := readPage_after valid add replies empty n
      constructor
      · rintro ⟨s, hs, hnext⟩
        obtain ⟨hbefore, rfl⟩ := ih.1 hs
        rcases hround with ⟨_, _, h⟩ | ⟨_, _, h⟩ | ⟨_, _, h⟩ | ⟨hcontinues, h⟩
        · rw [h] at hnext
          cases hnext
        · rw [h] at hnext
          cases hnext
        · rw [h] at hnext
          cases hnext
        · rw [h] at hnext
          refine ⟨fun k hk => ?_, (Turn.next.inj hnext).symm⟩
          rcases Nat.lt_succ_iff_lt_or_eq.1 hk with hlt | rfl
          · exact hbefore k hlt
          · exact hcontinues
      · rintro ⟨hbefore, rfl⟩
        refine ⟨_, ih.2 ⟨fun k hk => hbefore k (by omega), rfl⟩, ?_⟩
        have hcontinues : Continues valid replies n := hbefore n (by omega)
        rcases hround with ⟨hfails, _⟩ | ⟨_, hunreadable, _⟩ | ⟨_, hlast, _⟩ | ⟨_, h⟩
        · exact absurd hfails hcontinues.1.not_fails
        · exact absurd hcontinues.1 hunreadable
        · exact absurd hlast (not_or.2 ⟨hcontinues.2.1, not_le.2 hcontinues.2.2⟩)
        · exact h

/-- **What a reader returns or raises**: the outcome of the request that makes it stop. -/
theorem readPages_eq_some_iff :
    readPages valid add replies empty fuel = some outcome ↔
      ∃ n < fuel, StopsAt valid add replies empty n outcome :=
  loop_eq_some_iff

theorem stopsAt_iff :
    StopsAt valid add replies empty n outcome ↔
      (∀ k < n, Continues valid replies k) ∧
        readPage valid add replies n
          ((recordsOf replies n).length,
          (recordsOf replies n).foldl add empty) = .stop outcome := by
  simp only [StopsAt, reached_readPage_iff, and_assoc, exists_and_left, exists_eq_left]

/-- The reader stops, one way or another, at a request after which it does not go on. -/
theorem exists_stopsAt (add : β → α → β) (empty : β) (hbefore : ∀ k < n, Continues valid replies k)
    (hlast : ¬ Continues valid replies n) :
    ∃ outcome, StopsAt valid add replies empty n outcome := by
  have hround := readPage_after valid add replies empty n
  rcases hround with ⟨_, cause, h⟩ | ⟨_, _, h⟩ | ⟨_, _, h⟩ | ⟨hcontinues, _⟩
  · exact ⟨_, stopsAt_iff.2 ⟨hbefore, h⟩⟩
  · exact ⟨_, stopsAt_iff.2 ⟨hbefore, h⟩⟩
  · exact ⟨_, stopsAt_iff.2 ⟨hbefore, h⟩⟩
  · exact absurd hcontinues hlast

/-- **Exactly when a reader is complete or raises.** -/
theorem completeOrRaises_readPages_iff :
    CompleteOrRaises (readPages valid add replies empty)
        (MadeOfAnnounced valid add replies empty) ↔ EndsProperly valid replies := by
  have hround := readPage_after valid add replies empty
  constructor
  · rintro ⟨⟨fuel, outcome, hread⟩, hlaw⟩
    obtain ⟨n, hn, hstops⟩ := readPages_eq_some_iff.1 hread
    obtain ⟨hbefore, hstop⟩ := stopsAt_iff.1 hstops
    refine ⟨n, hbefore, ?_⟩
    rcases hlaw fuel outcome hread with ⟨cause, rfl⟩ | ⟨result, rfl, m, hm, hreadable, _, hall⟩
    · left
      rcases hround n with ⟨hfails, _⟩ | ⟨_, _, h⟩ | ⟨_, _, h⟩ | ⟨_, h⟩
      · exact hfails
      all_goals
        rw [h] at hstop
        cases hstop
    · -- the reader stops at one request only
      obtain ⟨s, hs, hsstop⟩ := hm
      obtain ⟨t, ht, htstop⟩ := hstops
      obtain ⟨rfl, _⟩ := stop_unique hs hsstop ht htstop
      exact .inr ⟨hreadable m le_rfl, hall⟩
  · rintro ⟨n, hbefore, hend⟩
    have hlast : ¬ Continues valid replies n := by
      rintro ⟨hreadable, _, hmore⟩
      rcases hend with hfails | ⟨_, hall⟩
      · exact hreadable.not_fails hfails
      · exact absurd hall (not_le.2 hmore)
    -- a reader that goes on until the `n`-th request and not after it stops there
    obtain ⟨outcome, hstops⟩ := exists_stopsAt add empty hbefore hlast
    refine ⟨⟨n + 1, outcome, readPages_eq_some_iff.2 ⟨n, by omega, hstops⟩⟩,
      fun fuel out hread => ?_⟩
    obtain rfl := loop_unique hread (readPages_eq_some_iff.2 ⟨n, Nat.lt_succ_self n, hstops⟩)
    obtain ⟨_, hstop⟩ := stopsAt_iff.1 hstops
    rcases hround n with ⟨_, cause, h⟩ | ⟨hfails, hunreadable, _⟩ | ⟨hreadable, _, h⟩ | ⟨hmore, _⟩
    · rw [h] at hstop
      exact .inl ⟨cause, (Turn.stop.inj hstop).symm⟩
    · exact absurd hend (not_or.2 ⟨hfails, fun hreadable => hunreadable hreadable.1⟩)
    · rw [h] at hstop
      obtain rfl := Turn.stop.inj hstop
      refine .inr ⟨_, rfl, n, hstops, fun k hk => ?_, rfl, ?_⟩
      · rcases Nat.lt_or_eq_of_le hk with hlt | rfl
        · exact (hbefore k hlt).1
        · exact hreadable
      · exact (hend.resolve_left hreadable.not_fails).2
    · exact absurd hmore hlast

end Reading

/-! ### The two readers -/

section Readers

variable {client : String × String} {userReplies : ℕ → PageReply UserDataItem}
  {logReplies : ℕ → PageReply LogEntry}

/-- **Exactly when the readers are complete or raise**: a server that is not configured is asked
nothing. -/
theorem completeOrRaises_iff :
    (CompleteOrRaises (getLibraryUserData client userReplies)
          (MadeOfAnnounced (·.id.isSome) addUserDataItem userReplies fun _ => none) ∧
        CompleteOrRaises (getPlayActivity client logReplies) fun activity =>
          Contactable client →
            MadeOfAnnounced (fun _ => true) addEntry logReplies (fun _ => none) activity) ↔
      (Contactable client →
        EndsProperly (·.id.isSome) userReplies ∧ EndsProperly (fun _ => true) logReplies) := by
  by_cases hclient : Contactable client
  · have huser : getLibraryUserData client userReplies =
        readPages (·.id.isSome) addUserDataItem userReplies fun _ => none :=
      funext fun _ => if_pos hclient
    have hlog : getPlayActivity client logReplies =
        readPages (fun _ => true) addEntry logReplies fun _ => none :=
          funext fun _ => if_pos hclient
    have hcomplete : (fun activity => Contactable client →
        MadeOfAnnounced (fun _ => true) addEntry logReplies (fun _ => none) activity) =
          MadeOfAnnounced (fun _ => true) addEntry logReplies fun _ => none :=
      funext fun _ => propext (forall_prop_of_true hclient)
    rw [huser, hlog, hcomplete, completeOrRaises_readPages_iff, completeOrRaises_readPages_iff]
    exact ⟨fun h _ => h, fun h => h hclient⟩
  · have huser : getLibraryUserData client userReplies =
        fun _ => some (.error (.unreachable .notConfigured)) := funext fun _ => if_neg hclient
    have hlog : getPlayActivity client logReplies = fun _ => some (.ok fun _ => none) :=
      funext fun _ => if_neg hclient
    rw [huser, hlog]
    refine iff_of_true ⟨⟨⟨0, _, rfl⟩, ?_⟩, ⟨0, _, rfl⟩, ?_⟩ fun h => absurd h hclient
    · rintro fuel _ ⟨⟩
      exact .inl ⟨_, rfl⟩
    · rintro fuel _ ⟨⟩
      exact .inr ⟨_, rfl, fun h => absurd h hclient⟩

/-- A library of two items, of which the second page says nothing any more. -/
def shortReplies : ℕ → PageReply UserDataItem
  | 0 => .answered 200 (.object (.value [{ id := some "e1", userData := { played := true } }])
    (.value 2))
  | _ => .answered 200 (.object (.value []) (.value 2))

/-- The item on the page that came back empty is missing from what is returned. -/
theorem not_completeOrRaises_shortReplies :
    ¬ ∀ (client : String × String) (userReplies : ℕ → PageReply UserDataItem)
      (logReplies : ℕ → PageReply LogEntry),
      CompleteOrRaises (getLibraryUserData client userReplies)
          (MadeOfAnnounced (·.id.isSome) addUserDataItem userReplies fun _ => none) ∧
        CompleteOrRaises (getPlayActivity client logReplies) fun activity =>
          Contactable client →
            MadeOfAnnounced (fun _ => true) addEntry logReplies (fun _ => none) activity := by
  intro hclaim
  have hlaw := (hclaim ("http://emby:8096", "key") shortReplies fun _ => .exception).1
  have hclient : Contactable ("http://emby:8096", "key") := by decide
  have hread : getLibraryUserData ("http://emby:8096", "key") shortReplies =
      readPages (·.id.isSome) addUserDataItem shortReplies fun _ => none :=
    funext fun _ => if_pos hclient
  rw [hread, completeOrRaises_readPages_iff] at hlaw
  obtain ⟨n, _, hend⟩ := hlaw
  have hone : ∀ n, (recordsOf shortReplies (n + 1)).length = 1 := by
    intro n
    induction n with
    | zero => rfl
    | succ n ih => rw [recordsOf_succ, List.length_append, ih]; rfl
  rcases hend with hfails | ⟨_, hall⟩
  · cases n <;> simp [shortReplies, PageReply.Fails] at hfails
  · rw [hone] at hall
    cases n <;> simp [shortReplies, PageReply.announced, JsonField.getD] at hall

end Readers

/-! ### The latest play -/

section Latest

variable (parse : String → Option ℤ) (entries : List LogEntry)

/-- **The law of the log**: the value of an item is the date of one of its stops, and no other stop
of the item is later. -/
def LatestPlay (activity : Activity) : Prop :=
  ∀ id date, activity id = some date →
    (∃ entry ∈ entries, entry.isStop = true ∧ entry.itemId = id ∧ entry.date = date) ∧
      ∃ t, parse date = some t ∧ ∀ entry ∈ entries, entry.isStop = true → entry.itemId = id →
        ∃ u, parse entry.date = some u ∧ u ≤ t

/-- **The dates for which the law holds**: a stop that is earlier than another stop of its item has
not the largest text among the stops of the item. -/
def LargestIsLatest : Prop :=
  ∀ stop ∈ entries, stop.isStop = true →
    (∃ later ∈ entries, later.isStop = true ∧ later.itemId = stop.itemId ∧
      ∃ t u, parse stop.date = some t ∧ parse later.date = some u ∧ t < u) →
    ∃ larger ∈ entries, larger.isStop = true ∧ larger.itemId = stop.itemId ∧ stop.date < larger.date

/-- A server that gives its log in the given pages, each with the number of all entries. -/
def servePages (pages : List (List LogEntry)) (k : ℕ) : PageReply LogEntry :=
  .answered 200 (.object (.value (pages.getD k [])) (.value pages.flatten.length))

end Latest

section Served

variable {parse : String → Option ℤ} {entries : List LogEntry} {pages : List (List LogEntry)}
  {client : String × String} {n : ℕ}

theorem recordsOf_servePages : recordsOf (servePages pages) n = (pages.take n).flatten := by
  induction n with
  | zero => rfl
  | succ n ih =>
      rw [recordsOf_succ, ih, List.take_add_one, List.flatten_append]
      congr 1
      simp only [servePages, PageReply.records, JsonField.getD, Option.getD_some,
        List.getD_eq_getElem?_getD]
      cases pages[n]? <;> simp

theorem readable_servePages : (servePages pages n).Readable fun _ => true :=
  ⟨rfl, nofun, by simp, fun _ => nofun⟩

/-- **The log is read to its end**, whatever the pages are. -/
theorem getPlayActivity_servePages (hclient : Contactable client)
    (hpages : ∀ page ∈ pages, page ≠ []) :
    getPlayActivity client (servePages pages) (pages.length + 1) =
      some (.ok (pages.flatten.foldl addEntry fun _ => none)) := by
  have hlast : recordsOf (servePages pages) (pages.length - 1 + 1) = pages.flatten := by
    rw [recordsOf_servePages, List.take_of_length_le (by omega)]
  have hbefore : ∀ k < pages.length - 1, Continues (fun _ => true) (servePages pages) k := by
    intro k hk
    have hpage : pages[k]? = some pages[k] := List.getElem?_eq_getElem (by omega)
    refine ⟨readable_servePages, ?_, ?_⟩
    · simpa [servePages, PageReply.records, JsonField.getD, hpage] using
        hpages _ (List.getElem_mem _)
    · have hsplit : pages.flatten =
          (pages.take (k + 1)).flatten ++ (pages.drop (k + 1)).flatten := by
        rw [← List.flatten_append, List.take_append_drop]
      have hmore : (pages.drop (k + 1)).flatten ≠ [] := by
        rw [List.drop_eq_getElem_cons (by omega), List.flatten_cons]
        exact List.append_ne_nil_of_left_ne_nil (hpages _ (List.getElem_mem _)) _
      have hpos := List.length_pos_iff.2 hmore
      have htotal : (servePages pages k).announced = (pages.flatten.length : ℤ) := rfl
      rw [recordsOf_servePages, htotal, hsplit, List.length_append]
      omega
  rw [getPlayActivity, if_pos hclient, readPages_eq_some_iff]
  refine ⟨pages.length - 1, by omega, stopsAt_iff.2 ⟨hbefore, ?_⟩⟩
  have hround := readPage_after (fun _ => true) addEntry (servePages pages) (fun _ => none)
    (pages.length - 1)
  rw [hlast] at hround
  rcases hround with ⟨hfails, _⟩ | ⟨_, hunreadable, _⟩ | ⟨_, _, h⟩ | ⟨⟨_, _, hmore⟩, _⟩
  · exact absurd hfails readable_servePages.not_fails
  · exact absurd readable_servePages hunreadable
  · exact h
  · rw [hlast] at hmore
    exact absurd hmore (lt_irrefl _)

/-- The value of an item is the largest text among its stops. -/
theorem foldl_addEntry_eq_some_iff {id date : String} :
    entries.foldl addEntry (fun _ => none) id = some date ↔
      (∃ entry ∈ entries, entry.isStop = true ∧ entry.itemId = id ∧ entry.date = date) ∧
        ∀ entry ∈ entries, entry.isStop = true → entry.itemId = id → entry.date ≤ date := by
  rw [foldl_addEntry, Option.toList_none, List.nil_append, List.max?_eq_some_iff]
  simp only [stopDates, List.mem_map, List.mem_filter, Bool.and_eq_true, decide_eq_true_eq]
  grind

/-- The largest text is the latest date, if and only if no other text is later. -/
theorem latestPlay_foldl_iff
    (hparse : ∀ entry ∈ entries, entry.isStop = true → (parse entry.date).isSome = true) :
    LatestPlay parse entries (entries.foldl addEntry fun _ => none) ↔
      LargestIsLatest parse entries := by
  constructor
  · intro hlaw stop hstop hisStop ⟨later, hlater, hlaterStop, hitem, t, u, ht, hu, hlt⟩
    by_contra hnone
    -- the earlier stop has the largest text, so it is the value of the item
    have hvalue : entries.foldl addEntry (fun _ => none) stop.itemId = some stop.date := by
      refine foldl_addEntry_eq_some_iff.2 ⟨⟨stop, hstop, hisStop, rfl, rfl⟩,
        fun entry he hs hid => ?_⟩
      exact not_lt.1 fun hlarger => hnone ⟨entry, he, hs, hid, hlarger⟩
    obtain ⟨_, t', ht', hall⟩ := hlaw _ _ hvalue
    obtain ⟨u', hu', hle⟩ := hall later hlater hlaterStop hitem
    rw [ht] at ht'
    rw [hu] at hu'
    obtain rfl := Option.some.inj ht'
    obtain rfl := Option.some.inj hu'
    exact absurd hlt (not_lt.2 hle)
  · intro hdates id date hvalue
    obtain ⟨⟨stop, hstop, hisStop, rfl, rfl⟩, hlargest⟩ := foldl_addEntry_eq_some_iff.1 hvalue
    obtain ⟨t, ht⟩ := Option.isSome_iff_exists.1 (hparse stop hstop hisStop)
    refine ⟨⟨stop, hstop, hisStop, rfl, rfl⟩, t, ht, fun entry he hs hid => ?_⟩
    obtain ⟨u, hu⟩ := Option.isSome_iff_exists.1 (hparse entry he hs)
    refine ⟨u, hu, not_lt.1 fun hlt => ?_⟩
    obtain ⟨larger, hl, hls, hlid, hlarger⟩ :=
      hdates stop hstop hisStop ⟨entry, he, hs, hid, t, u, ht, hu, hlt⟩
    exact absurd hlarger (not_lt.2 (hlargest larger hl hls hlid))

/-- **Exactly when the latest play is returned.** -/
theorem latestPlay_iff (hpages : ∀ page ∈ pages, page ≠ [])
    (hparse : ∀ entry ∈ pages.flatten, entry.isStop = true → (parse entry.date).isSome = true) :
    (∃ fuel activity, getPlayActivity client (servePages pages) fuel = some (.ok activity) ∧
        LatestPlay parse pages.flatten activity) ↔
      (Contactable client → LargestIsLatest parse pages.flatten) := by
  by_cases hclient : Contactable client
  · have hread := getPlayActivity_servePages hclient hpages
    rw [forall_prop_of_true hclient, ← latestPlay_foldl_iff hparse]
    constructor
    · rintro ⟨fuel, activity, hactivity, hlaw⟩
      rw [getPlayActivity, if_pos hclient] at hactivity hread
      obtain rfl := Except.ok.inj (loop_unique hactivity hread)
      exact hlaw
    · exact fun hlaw => ⟨_, _, hread, hlaw⟩
  · refine iff_of_true ⟨0, fun _ => none, if_neg hclient, fun _ _ h => (nomatch h)⟩ fun h => ?_
    exact absurd h hclient

/-- Two stops of an item, the later one with the smaller text. -/
def mixedOffsets : List LogEntry :=
  [{ type := "playback.stop", itemId := "e1", date := "2025-02-10T23:30:00Z" },
    { type := "playback.stop", itemId := "e1", date := "2025-02-11T00:30:00+02:00" }]

theorem latestPlay_iff_oneOffset :
    ∃ fuel activity,
      getPlayActivity ("http://emby:8096", "key") (servePages [mixedOffsets.take 1]) fuel =
        some (.ok activity) ∧
      LatestPlay PyText.parseIsoDt [mixedOffsets.take 1].flatten activity := by
  refine (latestPlay_iff (fun page hpage => ?_) fun entry hentry _ => ?_).2 fun _ => ?_
  · obtain rfl := List.mem_singleton.1 hpage
    exact List.cons_ne_nil _ _
  · obtain rfl := List.mem_singleton.1 hentry
    decide +kernel
  · intro stop hstop _ ⟨later, hlater, _, _, t, u, ht, hu, hlt⟩
    obtain rfl := List.mem_singleton.1 hstop
    obtain rfl := List.mem_singleton.1 hlater
    rw [ht] at hu
    exact absurd hlt (Option.some.inj hu).not_lt

/-- The earlier of the two stops is returned. -/
theorem not_latestPlay_mixedOffsets :
    ¬ ∀ (client : String × String) (pages : List (List LogEntry)), (∀ page ∈ pages, page ≠ []) →
      (∀ entry ∈ pages.flatten, entry.isStop = true →
        (PyText.parseIsoDt entry.date).isSome = true) →
      ∃ fuel activity, getPlayActivity client (servePages pages) fuel = some (.ok activity) ∧
        LatestPlay PyText.parseIsoDt pages.flatten activity := by
  intro hclaim
  have hclient : Contactable ("http://emby:8096", "key") := by decide
  have hpages : ∀ page ∈ [mixedOffsets], page ≠ [] := by decide
  have hlaw := hclaim ("http://emby:8096", "key") [mixedOffsets] hpages (by decide +kernel)
  obtain ⟨fuel, activity, hread, hlatest⟩ := hlaw
  have hserved := getPlayActivity_servePages hclient hpages
  rw [getPlayActivity, if_pos hclient] at hread hserved
  obtain rfl := Except.ok.inj (loop_unique hread hserved)
  have hvalue : [mixedOffsets].flatten.foldl addEntry (fun _ => none) "e1" =
      some "2025-02-11T00:30:00+02:00" := by decide +kernel
  obtain ⟨_, t, ht, hall⟩ := hlatest _ _ hvalue
  obtain ⟨u, hu, hle⟩ :=
    hall { type := "playback.stop", itemId := "e1", date := "2025-02-10T23:30:00Z" }
    (by decide) rfl rfl
  have htime : PyText.parseIsoDt "2025-02-11T00:30:00+02:00" = some 1739226600000000 := by
    decide +kernel
  have hutime : PyText.parseIsoDt "2025-02-10T23:30:00Z" = some 1739230200000000 := by
    decide +kernel
  rw [htime] at ht
  rw [hutime] at hu
  obtain rfl := Option.some.inj ht
  obtain rfl := Option.some.inj hu
  exact absurd hle (by decide)

end Served

/-! ### A server that holds a log -/

namespace MediaServerState

variable (s : MediaServerState)

/-- The answers of the server to the requests of the reader. -/
def reply (k : ℕ) : PageReply LogEntry :=
  match s.logPage (500 * k) with
  | none => .exception
  | some (items, total) => .answered 200 (.object (.value items) (.value total))

variable {s}

/-- The two loops go through the same pages. -/
theorem loop_reply_eq {fuel k : ℕ} {result : Activity} (hstart : 500 * k ≤ s.entries.length)
    (hfuel : s.entries.length < 500 * k + fuel) :
    loop (readPage (fun _ => true) addEntry s.reply) fuel k (500 * k, result) =
      some (match s.readLog fuel (500 * k) result with
        | none => .error (.unreachable .fetchFailed)
        | some activity => .ok activity) := by
  induction fuel generalizing k result with
  | zero => omega
  | succ fuel ih =>
      cases hpage : s.logPage (500 * k) with
      | none => simp [loop, readLog, readPage, reply, hpage]
      | some page =>
          obtain ⟨items, total⟩ := page
          have hlog : ((s.entries.drop (500 * k)).take 500, s.entries.length) = (items, total) := by
            rw [logPage] at hpage
            split_ifs at hpage
            exact Option.some.inj hpage
          obtain ⟨rfl, rfl⟩ := Prod.mk.inj hlog
          have hlength : ((s.entries.drop (500 * k)).take 500).length =
              min 500 (s.entries.length - 500 * k) := by simp
          simp only [loop, readLog, readPage, reply, hpage, if_true, readBody, JsonField.getD,
            List.all_eq_true, implies_true, List.isEmpty_iff]
          by_cases hempty : (s.entries.drop (500 * k)).take 500 = []
          · simp only [hempty, if_true, true_or]
          · by_cases hdone : s.entries.length ≤
                500 * k + ((s.entries.drop (500 * k)).take 500).length
            · simp only [hempty, hdone, Int.ofNat_le, if_true, if_false, or_true]
            · -- a full page, and the next one starts after it
              have hfull : 500 * k + ((s.entries.drop (500 * k)).take 500).length =
                  500 * (k + 1) := by omega
              simp only [hempty, hdone, Int.ofNat_le, if_false, or_self]
              rw [hfull]
              exact ih (by omega) (by omega)

/-- **The log of a server that holds one.** -/
theorem getPlayActivity_eq {client : String × String} (hclient : Contactable client) :
    Hygie.getPlayActivity client s.reply (s.entries.length + 1) =
      some (match s.getPlayActivity with
        | none => .error (.unreachable .fetchFailed)
        | some activity => .ok activity) := by
  rw [Hygie.getPlayActivity, if_pos hclient, readPages, MediaServerState.getPlayActivity]
  exact loop_reply_eq (Nat.zero_le _) (by omega)

end MediaServerState

end Hygie
