/-
**The notice of a deletion.**

Before a title is removed from its media server, Discord is told, once for each row: the step looks
for the marker `now` of the row and stores it after it has sent the message.  But it stores it
whatever became of the message: where no webhook is configured, where Discord refuses, and where the
connection fails three times.  Then no attempt after it tries again.  A post whose answer is lost is
repeated, although the message may have arrived.  And a bulk request that only simulates writes the
status of a deleted row, with the marker.

An attempt may fail at any step, and it may be cancelled at any point.

Main definitions:

* `Post`, `Discord`, `sendNotification` — what becomes of the posts, and of the message;
* `DeletionAttempt`, `Notice.attempt` — an attempt to delete the row, by a batch, by a request for
  one row, or by a bulk request;
* `Notice.Single` — the law: at most one message, and none that is only marked;
* `Notice.Orderly` — an attempt that delivers a message exactly when it leaves the marker.

Main results:

* `Notice.exec_discordNotifyStep` — the step of the pipeline does this;
* `Notice.single_attempt_iff` — one attempt;
* `Notice.single_run_iff` — **exactly which runs of attempts obey the law**;
* `Discord.arrivals_eq_one_iff` — when no answer is lost, a message arrives if it is sent
  successfully.
-/

import Hygie.DeletionPipeline
import Hygie.ProgExec
import Hygie.QueueMachine

set_option relaxedAutoImplicit false
set_option autoImplicit false

namespace Hygie

/-! ### The message -/

/-- What becomes of a post to the webhook. -/
inductive Post
  | answered (code : ℕ)
  /-- A timeout or a lost connection, after the message has arrived or before. -/
  | lost (arrived : Bool)
  /-- Any other exception. -/
  | broken (arrived : Bool)
  /-- The attempt is cancelled meanwhile. -/
  | cancelled (arrived : Bool)
  deriving DecidableEq, Repr

/-- The message has arrived; Discord takes it with 200 or 204. -/
def Post.arrived : Post → Bool
  | answered code => code = 200 || code = 204
  | lost arrived | broken arrived | cancelled arrived => arrived

/-- The surroundings of a message: the setting, whether the embed can be built, and what becomes of
each post. -/
structure Discord where
  webhook : String
  embeds : Bool := true
  posts : ℕ → Post

/-- `http_retry`: the posts that are made when so many are left. -/
def httpRetryPosts (posts : ℕ → Post) : ℕ → ℕ → List Post
  | 0, _ => []
  | left + 1, k =>
      match posts k with
      | .lost arrived => .lost arrived :: httpRetryPosts posts left (k + 1)
      | post => [post]

namespace Discord

/-- The posts of a message. -/
def made (d : Discord) : List Post :=
  if d.webhook = "" ∨ d.embeds = false then [] else httpRetryPosts d.posts 3 0

/-- How often the message has arrived. -/
def arrivals (d : Discord) : ℕ := d.made.countP Post.arrived

/-- `send_notification`, for one title and outside of a dry run; nothing where it is cancelled. -/
def sendNotification (d : Discord) : Option Bool :=
  match d.made.getLast? with
  | some (.answered code) => some (code = 200 || code = 204)
  | some (.cancelled _) => none
  | _ => some false

end Discord

/-! ### The attempts -/

/-- Who attempts to delete a row. -/
inductive Caller
  | batch
  | deleteNow
  | bulk
  deriving DecidableEq, Repr

/-- Where an attempt is cancelled, if not while it sends. -/
inductive Cancellation
  | beforeNotice
  | beforeMarker
  | later
  deriving DecidableEq, Repr

/-- An attempt: who makes it, what becomes of the message, whether it is cancelled, and whether the
later steps succeed. -/
structure DeletionAttempt where
  caller : Caller
  dryRun : Bool := false
  discord : Discord
  cancelled : Option Cancellation := none
  succeeds : Bool := true

/-- The messages of a row that have been delivered, and whether it has the marker. -/
structure Notice where
  delivered : ℕ := 0
  marked : Bool := false
  deriving DecidableEq, Repr

/-- The status that an attempt writes at its end: none where a bulk request fails. -/
def Caller.status : Caller → Bool → Option Status
  | _, true => some .deleted
  | batch, false => some .error
  | deleteNow, false => some .pending
  | bulk, false => none

namespace Notice

/-- `DiscordNotifyStep`, and whether the attempt goes on. -/
def discordNotify (a : DeletionAttempt) (s : Notice) : Notice × Bool :=
  if s.marked then (s, true)
  else
    let sent : Notice := { s with delivered := s.delivered + a.discord.arrivals }
    match a.discord.sendNotification with
    | none => (sent, false)
    | some _ =>
        if a.cancelled = some .beforeMarker then (sent, false)
        else ({ sent with marked := true }, true)

/-- `update_queue_status`, as far as the marker goes. -/
def updateQueueStatus (s : Notice) (status : Status) : Notice :=
  if status = .deleted ∨ status = .deleting then { s with marked := true } else s

/-- What an attempt does. -/
def attempt (s : Notice) (a : DeletionAttempt) : Notice :=
  if a.dryRun then
    -- a bulk request writes the status of what it has only simulated
    if a.caller = .bulk then s.updateQueueStatus .deleted else s
  else if a.cancelled = some .beforeNotice then s
  else
    let (s, goesOn) := s.discordNotify a
    if goesOn = false ∨ a.cancelled.isSome then s
    else
      match a.caller.status a.succeeds with
      | some status => s.updateQueueStatus status
      | none => s

/-- What several attempts do, one after the other. -/
def run (s : Notice) (attempts : List DeletionAttempt) : Notice := attempts.foldl attempt s

/-! ### What is asked -/

/-- **The law**: at most one message has been delivered, and one if the row has the marker. -/
structure Single (s : Notice) : Prop where
  atMostOne : s.delivered ≤ 1
  delivered : s.marked = true → 1 ≤ s.delivered

/-- What an attempt has to find, or to do: where there is no marker yet, one message altogether if
it gets to the marker, and no second one if it does not. -/
structure Orderly (s : Notice) (a : DeletionAttempt) : Prop where
  simulated : a.dryRun = true → a.caller = .bulk → s.marked = false → s.delivered = 1
  once : a.dryRun = false → a.cancelled ≠ some .beforeNotice → s.marked = false →
    s.delivered + a.discord.arrivals ≤ 1
  marks : a.dryRun = false → a.cancelled ≠ some .beforeNotice → s.marked = false →
    a.discord.sendNotification ≠ none → a.cancelled ≠ some .beforeMarker →
      1 ≤ s.delivered + a.discord.arrivals

/-! ### The step of the pipeline -/

/-- What the table of the notifications and Discord answer to the pipeline of a row. -/
def serve (d : Discord) : ∀ q : Query, Notice → q.Answer × Notice
  | .notifiedNow _, s => (.ok (.ok s.marked), s)
  | .sendNow _, s => (.ok (.ok ()), { s with delivered := s.delivered + d.arrivals })
  | .markNow _, s => (.ok (.ok ()), { s with marked := true })
  | _, s => (.ok .noContent, s)

/-- **The step of the pipeline**: unless it is cancelled, it does what is said here. -/
theorem exec_discordNotifyStep {a : DeletionAttempt} {s : Notice} {ctx : DeletionContext}
    (hdry : ctx.dryRun = false) (hid : ctx.item.id ≠ 0)
    (hgoes : (s.discordNotify a).2 = true) :
    Prog.exec (serve a.discord) (discordNotifyStep ctx) s = (.ok ctx, (s.discordNotify a).1) := by
  have halready : Prog.exec (serve a.discord) (alreadyNotified ctx.item.id) s =
      (.ok s.marked, s) := by
    rw [alreadyNotified, if_pos hid]
    rfl
  rw [discordNotifyStep, if_neg (by simp [hdry])]
  refine Prog.exec_tryCatch_ok ?_
  rw [Prog.exec_bind_ok halready]
  cases hmarked : s.marked with
  | true =>
      rw [discordNotify, if_pos hmarked]
      rfl
  | false =>
      have hunmarked : ¬ s.marked = true := by simp [hmarked]
      have hmark : Prog.exec (serve a.discord) (markNotified ctx.item.id)
          { s with delivered := s.delivered + a.discord.arrivals } =
            (.ok (), { delivered := s.delivered + a.discord.arrivals, marked := true }) := by
        rw [markNotified, if_pos hid]
        rfl
      have hsend : Prog.exec (serve a.discord) (send (.sendNow ctx.item.id)) s =
          (.ok (.ok ()), { s with delivered := s.delivered + a.discord.arrivals }) := rfl
      have hend : (s.discordNotify a).1 =
          { delivered := s.delivered + a.discord.arrivals, marked := true } := by
        rw [discordNotify, if_neg hunmarked] at hgoes ⊢
        revert hgoes
        cases a.discord.sendNotification with
        | none => exact fun h => absurd h (by simp)
        | some sent =>
            simp only
            split_ifs
            · exact fun h => absurd h (by simp)
            · exact fun _ => rfl
      rw [if_neg (by simp), Prog.exec_bind_ok hsend, Prog.exec_bind_ok hmark, hend]
      rfl

/-! ### Runs of attempts -/

variable {s : Notice} {a : DeletionAttempt} {attempts : List DeletionAttempt}

/-- What an attempt at an unmarked row leaves that gets to the step. -/
theorem attempt_unmarked (hdry : a.dryRun = false) (hreaches : a.cancelled ≠ some .beforeNotice)
    (hmarked : s.marked = false) : s.attempt a =
      { delivered := s.delivered + a.discord.arrivals
        marked :=
          decide (a.discord.sendNotification ≠ none ∧ a.cancelled ≠ some .beforeMarker) } := by
  have hstatus : ∀ (s : Notice) (status : Status), s.marked = true →
      s.updateQueueStatus status = s := by
    rintro ⟨n, m⟩ status rfl
    simp only [updateQueueStatus]
    split_ifs <;> rfl
  rw [attempt, if_neg (by simp [hdry]), if_neg hreaches, discordNotify, if_neg (by simp [hmarked])]
  cases hsent : a.discord.sendNotification with
  | none => simp [hmarked]
  | some sent =>
      by_cases hcancelled : a.cancelled = some .beforeMarker
      · simp [hcancelled, hmarked]
      · have hmarks : decide (some sent ≠ none ∧ a.cancelled ≠ some .beforeMarker) = true :=
          decide_eq_true ⟨Option.some_ne_none _, hcancelled⟩
        rw [hmarks]
        simp only [hcancelled, if_false, Bool.true_eq_false, false_or]
        split_ifs
        · rfl
        · cases a.caller.status a.succeeds with
          | none => rfl
          | some status => exact hstatus _ status rfl

/-- A row that has the marker is left alone. -/
theorem attempt_marked (hmarked : s.marked = true) : s.attempt a = s := by
  have hstatus : ∀ status, s.updateQueueStatus status = s := by
    intro status
    obtain ⟨n, m⟩ := s
    obtain rfl : m = true := hmarked
    simp only [updateQueueStatus]
    split_ifs <;> rfl
  simp only [attempt, discordNotify, if_pos hmarked, hstatus]
  split_ifs
  · rfl
  · rfl
  · rfl
  · rfl
  · cases a.caller.status a.succeeds <;> rfl

/-- **One attempt** leaves the law as it was exactly if it is orderly. -/
theorem single_attempt_iff (h : s.Single) : (s.attempt a).Single ↔ s.Orderly a := by
  cases hmarked : s.marked with
  | true =>
      rw [attempt_marked hmarked]
      refine iff_of_true h ⟨?_, ?_, ?_⟩ <;> intros <;> simp_all
  | false =>
      cases hdry : a.dryRun with
      | true =>
          have hattempt : s.attempt a =
              if a.caller = .bulk then { s with marked := true } else s := by
            rw [attempt, if_pos hdry]
            rfl
          rw [hattempt]
          have hle := h.atMostOne
          split_ifs with hbulk
          · refine ⟨fun hsingle => ⟨fun _ _ _ => ?_, ?_, ?_⟩, fun horderly => ⟨hle, fun _ => ?_⟩⟩
            · exact Nat.le_antisymm hle (hsingle.delivered rfl)
            · intro hlive
              simp [hdry] at hlive
            · intro hlive
              simp [hdry] at hlive
            · exact (horderly.simulated hdry hbulk hmarked).ge
          · refine iff_of_true h ⟨fun _ hbulk' => absurd hbulk' hbulk, ?_, ?_⟩ <;> intro hlive <;>
              simp [hdry] at hlive
      | false =>
          by_cases hreaches : a.cancelled = some .beforeNotice
          · have hattempt : s.attempt a = s := by
              rw [attempt, if_neg (by simp [hdry]), if_pos hreaches]
            rw [hattempt]
            refine iff_of_true h ⟨?_, fun _ hnot => absurd hreaches hnot,
              fun _ hnot => absurd hreaches hnot⟩
            intro hsim
            simp [hdry] at hsim
          · rw [attempt_unmarked hdry hreaches hmarked]
            constructor
            · rintro ⟨hle, hdelivered⟩
              refine ⟨?_, fun _ _ _ => hle, fun _ _ _ hsent hmarks => ?_⟩
              · intro hsim
                simp [hdry] at hsim
              · exact hdelivered (decide_eq_true ⟨hsent, hmarks⟩)
            · rintro ⟨-, honce, hmarks⟩
              refine ⟨honce hdry hreaches hmarked, fun hdone => ?_⟩
              obtain ⟨hsent, hgets⟩ := of_decide_eq_true hdone
              exact hmarks hdry hreaches hmarked hsent hgets

theorem run_concat (done : List DeletionAttempt) (a : DeletionAttempt) :
    run s (done ++ [a]) = (run s done).attempt a := List.foldl_append

/-- **Exactly which runs of attempts obey the law** in every state that is reached: those in which
every attempt is orderly when its turn comes. -/
theorem single_run_iff (attempts : List DeletionAttempt) :
    (∀ done, done <+: attempts → (run {} done).Single) ↔
      ∀ done a, done ++ [a] <+: attempts → (run {} done).Orderly a := by
  constructor
  · intro h done a hnext
    have hbefore : (run {} done).Single := h done ((List.prefix_append _ _).trans hnext)
    have hafter : (run {} (done ++ [a])).Single := h _ hnext
    rw [run_concat] at hafter
    exact (single_attempt_iff hbefore).1 hafter
  · intro h done
    induction done using List.reverseRecOn with
    | nil => exact fun _ => ⟨Nat.zero_le 1, fun hmarked => by cases hmarked⟩
    | append_singleton done a ih =>
        intro hdone
        have hbefore : (run {} done).Single := ih ((List.prefix_append _ _).trans hdone)
        rw [run_concat]
        exact (single_attempt_iff hbefore).2 (h done a hdone)

end Notice

/-! ### When no answer is lost -/

namespace Discord

variable {d : Discord}

/-- A message arrives with an answer that says so, or not at all. -/
def Faithful (d : Discord) : Prop :=
  ∀ k, (d.posts k).arrived = true → ∃ code, d.posts k = .answered code

/-- The next post is made if the connection is lost. -/
theorem httpRetryPosts_succ (posts : ℕ → Post) (left k : ℕ) :
    (∃ arrived, posts k = .lost arrived ∧ httpRetryPosts posts (left + 1) k =
        .lost arrived :: httpRetryPosts posts left (k + 1)) ∨
      httpRetryPosts posts (left + 1) k = [posts k] := by
  cases hpost : posts k with
  | lost arrived => exact .inl ⟨arrived, rfl, by simp only [httpRetryPosts, hpost]⟩
  | answered code => exact .inr (by simp only [httpRetryPosts, hpost])
  | broken arrived => exact .inr (by simp only [httpRetryPosts, hpost])
  | cancelled arrived => exact .inr (by simp only [httpRetryPosts, hpost])

theorem exists_of_mem_httpRetryPosts {posts : ℕ → Post} {left k : ℕ} {post : Post}
    (h : post ∈ httpRetryPosts posts left k) : ∃ n, posts n = post := by
  induction left generalizing k with
  | zero => exact absurd h List.not_mem_nil
  | succ left ih =>
      rcases httpRetryPosts_succ posts left k with ⟨arrived, hlost, hmade⟩ | hmade
      · rw [hmade] at h
        rcases List.mem_cons.1 h with rfl | hlater
        · exact ⟨k, hlost⟩
        · exact ih hlater
      · rw [hmade] at h
        exact ⟨k, (List.mem_singleton.1 h).symm⟩

/-- What the posts count for is what the last one does. -/
theorem countP_httpRetryPosts (h : d.Faithful) (left k : ℕ) :
    (httpRetryPosts d.posts left k).countP Post.arrived =
      if (httpRetryPosts d.posts left k).getLast?.any Post.arrived then 1 else 0 := by
  induction left generalizing k with
  | zero => rfl
  | succ left ih =>
      rcases httpRetryPosts_succ d.posts left k with ⟨arrived, hlost, hmade⟩ | hmade
      · -- the answer is lost, so the message has not arrived, and the next post counts
        have hnot : (Post.lost arrived).arrived = false := by
          by_contra harrived
          obtain ⟨code, hcode⟩ := h k (by rw [hlost]; simpa using harrived)
          rw [hlost] at hcode
          cases hcode
        rw [hmade, List.countP_cons_of_neg (by simp [hnot]), ih, List.getLast?_cons]
        cases (httpRetryPosts d.posts left (k + 1)).getLast? with
        | none => simp [hnot]
        | some post => rfl
      · rw [hmade, List.countP_singleton]
        rfl

/-- **When no answer is lost**, one message arrives if it is sent successfully, and none otherwise.
-/
theorem arrivals_eq_one_iff (h : d.Faithful) : d.arrivals = 1 ↔ d.sendNotification = some true := by
  have hcount : d.arrivals = if d.made.getLast?.any Post.arrived then 1 else 0 := by
    by_cases hnothing : d.webhook = "" ∨ d.embeds = false
    · rw [arrivals, made, if_pos hnothing]
      rfl
    · rw [arrivals, made, if_neg hnothing]
      exact countP_httpRetryPosts h 3 0
  have hanswered : ∀ post ∈ d.made, post.arrived = true → ∃ code, post = .answered code := by
    intro post hpost harrived
    rw [made] at hpost
    split_ifs at hpost
    · cases hpost
    · obtain ⟨n, rfl⟩ := exists_of_mem_httpRetryPosts hpost
      exact h n harrived
  rw [hcount, sendNotification]
  cases hlast : d.made.getLast? with
  | none => simp
  | some post =>
      have harrives := hanswered post (List.mem_of_getLast? hlast)
      cases post with
      | answered code => simp [Post.arrived, or_iff_not_imp_left]
      | lost arrived =>
          cases arrived with
          | false => simp [Post.arrived]
          | true => exact absurd (harrives rfl) (by simp)
      | broken arrived =>
          cases arrived with
          | false => simp [Post.arrived]
          | true => exact absurd (harrives rfl) (by simp)
      | cancelled arrived =>
          cases arrived with
          | false => simp [Post.arrived]
          | true => exact absurd (harrives rfl) (by simp)

end Discord

/-- No webhook is configured. -/
def unconfigured : Discord where
  webhook := ""
  posts := fun _ => .broken false

/-- Without a webhook the first attempt marks the row, although nothing is delivered. -/
theorem Notice.not_single_unconfigured :
    ¬ ∀ done, done <+: [{ caller := .batch, discord := unconfigured : DeletionAttempt }] →
      (Notice.run {} done).Single := by
  intro h
  have hdelivered := (h _ (List.prefix_refl _)).delivered rfl
  exact absurd hdelivered (by decide)

end Hygie
