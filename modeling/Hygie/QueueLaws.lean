/-
**What holds of the queue in every order of steps.**

The claim (`pending` to `deleting`, for whoever comes first) keeps two parties from deleting one row
twice, and the last write of a run settles the row, but only among parties that respect the claim.
Three do not: a bulk request takes rows of any status and claims none, a worker that starts sets
`deleting` rows back while another worker may be deleting them, and a scrobble sets back the rows of
an item whatever their status.  And a claim is given up by the last write alone, so that a run that
raises or is cancelled before it leaves the row in `deleting`.

Every law is about all runs whose steps meet a condition, from any rows and with nobody at work.

Main definitions:

* `QueueState.Orderly`, `QueueState.AtMostOnePipeline` — claims are respected, and no row is deleted
  twice at a time;
* `QueueState.Undisturbed` — claimed rows are left to their holders;
* `QueueState.Claimed`, `QueueState.Stranded`, `QueueState.Unbroken` — a row that a run has claimed,
  one in `deleting` that nobody holds, and the steps that stop no holder.

Main results:

* `QueueState.atMostOnePipeline_of_run` — **at most one pipeline works on a row**;
* `QueueState.status_laws` — **what becomes of `deleted` and `deleting` rows**;
* `QueueState.not_stranded_of_run` — **no claim is stranded** as long as no holder is stopped.
-/

import Hygie.QueueMachine

set_option relaxedAutoImplicit false
set_option autoImplicit false

namespace Hygie

namespace QueueState

variable {s s' : QueueState} {rows : ℤ → Option QueueRow} {as : List Action} {a : Action} {id : ℤ}

/-! ### One pipeline for a row -/

/-- The deletion pipeline of a row is executing once at most. -/
def AtMostOnePipeline (s : QueueState) : Prop :=
  ∀ t u id, (s.tasks t).works = some id → (s.tasks u).works = some id → t = u

/-- The steps that respect claims: a row is claimed only while no bulk request runs its pipeline, a
bulk request runs the pipeline of a row only while nobody holds the row or runs its pipeline, and
rows are set back only while nobody holds them. -/
def Orderly (s : QueueState) : Action → Prop
  | .claim t => ∀ id, s.tasks t = .ready id → s.statusOf id = some .pending →
      ∀ u, (s.tasks u).works ≠ some id
  | .begin t => ∀ id rows, s.tasks t = .looping false (id :: rows) →
      ∀ u, (s.tasks u).holds ≠ some id ∧ (s.tasks u).works ≠ some id
  | .startup => ∀ u, (s.tasks u).holds = none
  | .scrobble embyId _ => ∀ u id, (s.tasks u).holds = some id → s.embyIdOf id ≠ some embyId
  | _ => True

/-- On the board, these steps are the moves that respect claims. -/
theorem orderly_label (h : s.Orderly a) : s.board.Orderly (s.label a) := by
  cases a with
  | claim t =>
      simp only [label]
      split
      · next id htask =>
          split_ifs with hpending
          · exact h id htask hpending
          · trivial
      · trivial
  | begin t =>
      simp only [label]
      split
      · trivial
      · next id rows htask => exact h id rows htask
      · trivial
      · trivial
  | record t =>
      simp only [label]
      split
      · trivial
      · split_ifs <;> trivial
      · trivial
  | startup => exact h
  | scrobble embyId lastPlayed => exact fun u id hu => decide_eq_false (h u id hu)
  | select b ids => trivial
  | enter b id => trivial
  | request r id => trivial
  | bulkRequest r dryRun ids => trivial
  | finish t ok => trivial
  | alerted t => trivial
  | stop t => trivial

theorem exclusive_start : Board.Exclusive (some .pending) (start rows).board where
  not_free h := by cases h
  holder h := by cases h
  worker h := by cases h

/-- **At most one pipeline works on a row**, in every run whose steps respect claims. -/
theorem atMostOnePipeline_of_run (h : GuardedRun step Orderly (start rows) as s) :
    s.AtMostOnePipeline := by
  have hexclusive : Board.Exclusive (some .pending) s.board :=
    h.invariant (I := fun s => Board.Exclusive (some Status.pending) s.board) exclusive_start
      fun s a t hs hok hstep => by
        obtain ⟨hallows, hboard⟩ := board_step hstep
        rw [hboard]
        exact Board.exclusive_apply (by decide) (by decide) hs hallows (orderly_label hok)
  exact fun t u id ht hu => hexclusive.unique ht hu

/-- One row, pending. -/
def sampleRows : ℤ → Option QueueRow := fun id =>
  if id = 7 then
    some { id := 7, embyId := "42", title := "Alien", mediaType := "Movie", libraryId := "movies"
           libraryName := "Movies", filePath := "/movies/Alien/Alien.mkv"
           detectedAt := "2025-01-01T00:00:00", deleteAt := "2025-02-01T00:00:00" }
  else none

/-! Nobody is at a row as long as everybody is about to claim. -/

theorem works_move {t u : Actor} {task : Task} (hs : ∀ u, (s.tasks u).works ≠ some id)
    (htask : task.works ≠ some id) : ((s.move t task).tasks u).works ≠ some id := by
  simp only [move, Function.update_apply]
  split_ifs
  · exact htask
  · exact hs u

theorem visits_move {t u : Actor} {task : Task} (hs : ∀ u, (s.tasks u).visits ≠ some id)
    (htask : task.visits ≠ some id) : ((s.move t task).tasks u).visits ≠ some id := by
  simp only [move, Function.update_apply]
  split_ifs
  · exact htask
  · exact hs u

/-- Two requests for one row: the second one comes too late. -/
theorem atMostOnePipeline_of_run_deleteNow :
    ∃ s, GuardedRun step Orderly (start sampleRows)
        [.request 0 7, .request 1 7, .claim (.deleteNow 0), .begin (.deleteNow 0),
          .claim (.deleteNow 1)] s ∧
      s.AtMostOnePipeline := by
  obtain ⟨s, hs⟩ : ∃ s, runAll step (start sampleRows) [.request 0 7, .request 1 7,
      .claim (.deleteNow 0), .begin (.deleteNow 0), .claim (.deleteNow 1)] = some s := ⟨_, rfl⟩
  have hfirst : ∀ id u, ((((start sampleRows).move (.deleteNow 0) (.ready 7)).move (.deleteNow 1)
      (.ready 7)).tasks u).works ≠ some id := fun id u =>
    works_move (fun u => works_move (fun _ h => by cases h) fun h => by cases h) fun h => by cases h
  have hrun : GuardedRun step Orderly (start sampleRows)
      [.request 0 7, .request 1 7, .claim (.deleteNow 0), .begin (.deleteNow 0),
        .claim (.deleteNow 1)] s := by
    refine .cons trivial rfl (.cons trivial rfl (.cons (fun id _ _ u => hfirst id u) rfl
      (.cons (fun _ _ h => by cases h) rfl (.cons (fun id htask hpending => ?_) hs .nil))))
    -- the row is no longer pending
    obtain rfl : 7 = id := Task.ready.inj htask
    cases hpending
  exact ⟨_, hrun, atMostOnePipeline_of_run hrun⟩

/-- A bulk request runs the pipeline of a row that a batch is deleting. -/
theorem not_atMostOnePipeline_bulk :
    ¬ ∀ rows as s, GuardedRun step (fun _ _ => True) (start rows) as s → s.AtMostOnePipeline := by
  intro hclaim
  have hrun : GuardedRun step (fun _ _ => True) (start sampleRows)
      [.select 0 [7], .enter 0 7, .claim (.item 0 7), .begin (.item 0 7), .bulkRequest 1 false [7],
        .begin (.bulk 1)] _ := .of_runAll rfl
  exact absurd (hclaim _ _ _ hrun (.item 0 7) (.bulk 1) 7 rfl rfl) (by decide)

/-! ### What becomes of a row -/

/-- The steps that leave claimed rows to their holders: a row is claimed only while no bulk request
is at it, a bulk request takes up a row only while it is neither `deleting` nor `deleted`, and rows
are set back only while nobody holds them. -/
def Undisturbed (s : QueueState) : Action → Prop
  | .claim t => ∀ id, s.tasks t = .ready id → s.statusOf id = some .pending →
      ∀ u, (s.tasks u).visits ≠ some id
  | .begin t => ∀ dryRun id rows, s.tasks t = .looping dryRun (id :: rows) →
      s.statusOf id ≠ some .deleting ∧ s.statusOf id ≠ some .deleted
  | .startup => ∀ u, (s.tasks u).holds = none
  | .scrobble embyId _ => ∀ u id, (s.tasks u).holds = some id → s.embyIdOf id ≠ some embyId
  | _ => True

/-- On the board, these steps are the moves that leave held keys to their holders. -/
theorem undisturbed_label (h : s.Undisturbed a) :
    s.board.Undisturbed (some .deleting) (some .deleted) (s.label a) := by
  cases a with
  | claim t =>
      simp only [label]
      split
      · next id htask =>
          split_ifs with hpending
          · exact h id htask hpending
          · trivial
      · trivial
  | begin t =>
      simp only [label]
      split
      · trivial
      · next id rows htask => exact h false id rows htask
      · next id rows htask => exact h true id rows htask
      · trivial
  | record t =>
      simp only [label]
      split
      · trivial
      · split_ifs <;> trivial
      · trivial
  | startup => exact h
  | scrobble embyId lastPlayed => exact fun u id hu => decide_eq_false (h u id hu)
  | select b ids => trivial
  | enter b id => trivial
  | request r id => trivial
  | bulkRequest r dryRun ids => trivial
  | finish t ok => trivial
  | alerted t => trivial
  | stop t => trivial

theorem secure_start : Board.Secure (some .deleting) (start rows).board where
  held_taken h := by cases h
  holder h := by cases h
  visited h := by cases h

theorem secure_step (hs : Board.Secure (some .deleting) s.board) (hok : s.Undisturbed a)
    (hstep : s.step a = some s') : Board.Secure (some .deleting) s'.board := by
  obtain ⟨hallows, hboard⟩ := board_step hstep
  rw [hboard]
  exact Board.secure_apply (by decide) (by decide) hs hallows (undisturbed_label hok)

/-- A held row is `deleting` and has one holder, and no bulk request is at it. -/
theorem secure_of_run (h : GuardedRun step Undisturbed (start rows) as s) :
    Board.Secure (some .deleting) s.board :=
  h.invariant (I := fun s => Board.Secure (some Status.deleting) s.board) secure_start
    fun _ _ _ hs hok hstep => secure_step hs hok hstep

/-- What a permitted step does to a row in `deleted` or in `deleting`. -/
theorem status_step (hs : Board.Secure (some .deleting) s.board) (hok : s.Undisturbed a)
    (hstep : s.step a = some s') :
    (s.statusOf id = some .deleted →
      (s'.statusOf id = some .deleted ∨ s.Scrobbles id a ∧ s'.statusOf id = some .pending) ∧
        ∀ t, (s'.tasks t).works = some id → (s.tasks t).works = some id) ∧
    (s.statusOf id = some .deleting →
      s'.statusOf id = some .deleting ∨ (∃ t, a = .record t ∧ (s.tasks t).holds = some id) ∨
        a = .startup ∨ s.Scrobbles id a) := by
  obtain ⟨hallows, hboard⟩ := board_step hstep
  simp only [← board_status, ← board_works, ← board_holds, hboard]
  refine ⟨fun hdeleted => ⟨?_, fun t ht => ?_⟩, fun hdeleting => ?_⟩
  · rcases Board.final_apply (by decide) (by decide) hs hallows hdeleted with
      hstays | ⟨keys, hlabel, hid, hreset⟩
    · exact .inl hstays
    · exact .inr ⟨label_eq_reset hlabel hid, hreset⟩
  · exact Board.final_idle (by decide) hs (undisturbed_label hok) hdeleted ht
  · by_cases hstays : (s.board.apply (some .pending) (some .deleting) (some .deleted)
        (s.label a)).status id = some .deleting
    · exact .inl hstays
    · rcases Board.taken_apply hs hallows hdeleting hstays with
        ⟨t, status, hlabel, hheld⟩ | hlabel | ⟨keys, hlabel, hid⟩
      · exact .inr (.inl ⟨t, label_eq_record hlabel, hheld⟩)
      · exact .inr (.inr (.inl (label_eq_recover hlabel)))
      · exact .inr (.inr (.inr (label_eq_reset hlabel hid)))

/-- **What becomes of a row** in a run that leaves claimed rows to their holders.  A deleted row
stays deleted until its item is scrobbled, which sets it back to `pending`, and no pipeline starts
on it; a `deleting` row changes at the hands of its holder, when a worker starts, or when its item
is scrobbled. -/
theorem status_laws (hrun : GuardedRun step Undisturbed (start rows) as s) :
    (s.statusOf id = some .deleted → ∀ bs u,
      GuardedRun step (fun s a => s.Undisturbed a ∧ ¬ s.Scrobbles id a) s bs u →
        u.statusOf id = some .deleted) ∧
    ∀ a s', s.Undisturbed a → s.step a = some s' →
      (s.statusOf id = some .deleted →
        (s'.statusOf id = some .deleted ∨ s.Scrobbles id a ∧ s'.statusOf id = some .pending) ∧
          ∀ t, (s'.tasks t).works = some id → (s.tasks t).works = some id) ∧
      (s.statusOf id = some .deleting →
        s'.statusOf id = some .deleting ∨ (∃ t, a = .record t ∧ (s.tasks t).holds = some id) ∨
          a = .startup ∨ s.Scrobbles id a) := by
  have hsecure := secure_of_run hrun
  refine ⟨fun hdeleted bs u hlater => ?_, fun a s' hok hstep => status_step hsecure hok hstep⟩
  -- along the rest of the run the board stays secure and the row deleted
  have hkept : Board.Secure (some .deleting) u.board ∧ u.statusOf id = some .deleted :=
    hlater.invariant
      (I := fun u => Board.Secure (some Status.deleting) u.board ∧ u.statusOf id = some .deleted)
      ⟨hsecure, hdeleted⟩ fun t a v ht hok hstep => by
        refine ⟨secure_step ht.1 hok.1 hstep, ?_⟩
        rcases ((status_step ht.1 hok.1 hstep).1 ht.2).1 with hstays | ⟨hscrobbles, -⟩
        · exact hstays
        · exact absurd hscrobbles hok.2
  exact hkept.2

theorem status_laws_deleteNow :
    ∃ s, GuardedRun step Undisturbed (start sampleRows)
        [.request 0 7, .claim (.deleteNow 0), .begin (.deleteNow 0), .finish (.deleteNow 0) true,
          .record (.deleteNow 0)] s ∧
      ∀ bs u, GuardedRun step (fun s a => s.Undisturbed a ∧ ¬ s.Scrobbles 7 a) s bs u →
        u.statusOf 7 = some .deleted :=
  have hrun : GuardedRun step Undisturbed (start sampleRows)
      [.request 0 7, .claim (.deleteNow 0), .begin (.deleteNow 0), .finish (.deleteNow 0) true,
        .record (.deleteNow 0)] _ :=
    .snoc (.snoc (.snoc (.snoc (.snoc .nil trivial rfl)
      (fun id _ _ _ => visits_move (fun _ h => by cases h) fun h => by cases h) rfl)
      (fun _ _ _ h => by cases h) rfl) trivial rfl) trivial rfl
  ⟨_, hrun, (status_laws hrun).1 rfl⟩

/-- A Plex scrobble sets a deleted row back to `pending`. -/
theorem not_status_laws_scrobble :
    ¬ ∀ rows as s id, GuardedRun step (fun _ _ => True) (start rows) as s →
      s.statusOf id = some .deleted → ∀ a s', s.step a = some s' →
        s'.statusOf id = some .deleted := by
  intro hclaim
  have hrun : GuardedRun step (fun _ _ => True) (start sampleRows)
      [.request 0 7, .claim (.deleteNow 0), .begin (.deleteNow 0), .finish (.deleteNow 0) true,
        .record (.deleteNow 0)] _ := .of_runAll rfl
  exact absurd (hclaim _ _ _ 7 hrun rfl (.scrobble "42" "2025-03-01T00:00:00") _ rfl) (by decide)

/-! ### Stranded claims -/

/-- A row is stranded: it is in `deleting` and nobody holds it. -/
def Stranded (s : QueueState) (id : ℤ) : Prop :=
  s.statusOf id = some .deleting ∧ ∀ t, (s.tasks t).holds ≠ some id

theorem stranded_iff : s.Stranded id ↔ Board.Orphan (some .deleting) s.board id := Iff.rfl

/-- The steps that stop no holder. -/
def Unbroken (s : QueueState) : Action → Prop
  | .stop t => (s.tasks t).holds = none
  | _ => True

/-- A step that stops no holder strands nothing. -/
theorem stranded_of_step (hok : s.Unbroken a) (hstep : s.step a = some s') (h : s'.Stranded id) :
    s.Stranded id := by
  obtain ⟨hallows, hboard⟩ := board_step hstep
  rw [stranded_iff, hboard] at h
  refine Board.orphan_of_apply (by decide) (by decide) hallows (fun t hlabel => ?_) h
  obtain rfl := label_eq_abandon hlabel
  exact hok

/-- Among the actions of a run from the given rows, an actor has set a row from `pending` to
`deleting`. -/
def Claimed (rows : ℤ → Option QueueRow) (as : List Action) (t : Actor) (id : ℤ) : Prop :=
  ∃ bs cs u, as = bs ++ .claim t :: cs ∧ runAll step (start rows) bs = some u ∧
    u.tasks t = .ready id ∧ u.statusOf id = some .pending

/-- Whoever has claimed a row holds it. -/
theorem holds_of_claim {t : Actor} (htask : s.tasks t = .ready id)
    (hpending : s.statusOf id = some .pending) (hstep : s.step (.claim t) = some s') :
    (s'.tasks t).holds = some id := by
  simp only [step, htask, claimForDeletion, if_pos hpending, Option.some.injEq] at hstep
  subst hstep
  simp [move, Task.holds]

/-- **No claim is stranded** in a run that stops no holder: a row that the run has claimed is, at
its end, no longer `deleting`, or is held by an actor that is still at it. -/
theorem not_stranded_of_run {t : Actor} (hrun : GuardedRun step Unbroken (start rows) as s)
    (hclaimed : Claimed rows as t id) : ¬ s.Stranded id := by
  obtain ⟨bs, cs, u, rfl, hbefore, htask, hpending⟩ := hclaimed
  rw [List.append_cons] at hrun
  obtain ⟨v, hclaim, hafter⟩ := hrun.exists_of_append
  obtain ⟨u', hfirst, -, hstep⟩ := GuardedRun.concat_iff.1 hclaim
  obtain rfl : u' = u := Option.some.inj (hfirst.runAll_eq.symm.trans hbefore)
  intro hstranded
  -- back to the state after the claim, in which the row is held
  have hback : v.Stranded id :=
    hafter.invariant (I := fun w => w.Stranded id → v.Stranded id) (fun h => h)
      (fun w a w' hw hok hnext h => hw (stranded_of_step hok hnext h)) hstranded
  exact hback.2 t (holds_of_claim htask hpending hstep)

/-- The row was `deleting` when the worker started; a batch claims it and fails, and a request that
waits for it is cancelled. -/
theorem not_stranded_of_run_restarted :
    let rows := fun id => (sampleRows id).map fun r => { r with status := .deleting }
    let actions : List Action :=
      [.startup, .select 0 [7], .request 1 7, .enter 0 7, .claim (.item 0 7), .begin (.item 0 7),
        .stop (.deleteNow 1), .finish (.item 0 7) false, .record (.item 0 7), .alerted (.item 0 7)]
    Claimed rows actions (.item 0 7) 7 ∧ ∃ s, GuardedRun step Unbroken (start rows) actions s ∧
      ¬ s.Stranded 7 := by
  intro rows actions
  have hclaimed : Claimed rows actions (.item 0 7) 7 :=
    ⟨[.startup, .select 0 [7], .request 1 7, .enter 0 7], _, _, rfl, rfl, rfl, rfl⟩
  have hrun : GuardedRun step Unbroken (start rows) actions _ :=
    .cons trivial rfl (.cons trivial rfl (.cons trivial rfl (.cons trivial rfl (.cons trivial rfl
      (.cons trivial rfl (.cons rfl rfl (.cons trivial rfl (.cons trivial rfl (.cons trivial rfl
        .nil)))))))))
  exact ⟨hclaimed, _, hrun, not_stranded_of_run hrun hclaimed⟩

/-- The only holder of a row strands it by stopping. -/
theorem stranded_of_stop {t : Actor} (hsecure : Board.Secure (some .deleting) s.board)
    (hheld : (s.tasks t).holds = some id) (hstep : s.step (.stop t) = some s') :
    s'.Stranded id := by
  rw [stranded_iff, (board_step hstep).2]
  exact Board.orphan_of_abandon (hsecure.held_taken hheld) fun u hu => hsecure.holder hu hheld

/-- A delete-now request that is cancelled after its claim strands the row. -/
theorem stranded_of_run_cancelled :
    ¬ ∀ rows as s t id, GuardedRun step (fun _ _ => True) (start rows) as s →
      Claimed rows as t id → ¬ s.Stranded id := by
  intro hclaim
  have hrun : GuardedRun step (fun _ _ => True) (start sampleRows)
      [.request 0 7, .claim (.deleteNow 0), .stop (.deleteNow 0)] _ := .of_runAll rfl
  have hclaimed : Claimed sampleRows [.request 0 7, .claim (.deleteNow 0), .stop (.deleteNow 0)]
      (.deleteNow 0) 7 := ⟨[.request 0 7], _, _, rfl, rfl, rfl, rfl⟩
  refine hclaim _ _ _ _ 7 hrun hclaimed ⟨rfl, fun u => ?_⟩
  by_cases hu : u = .deleteNow 0
  · subst hu
    simp [leave, move, Task.holds]
  · simp [leave, move, claimForDeletion_tasks hu, start, hu, Task.holds]

end QueueState

end Hygie
