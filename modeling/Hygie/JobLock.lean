/-
**The advisory lock of the jobs.**

With several workers the scan job and the deletion job take a lock of the database.  `GET_LOCK`
belongs to the connection that has issued it, so a job keeps its connection for as long as it holds
the lock, and gives it back to the pool of its worker afterwards.  No two jobs are in the body at a
time, whatever goes wrong: who is in the body has a connection of its own, and the lock is held by
one connection.

What may go wrong is that the lock outlives the job.  A `GET_LOCK` that is granted and then fails or
is cancelled, and a `RELEASE_LOCK` that fails or is cancelled before the server has executed it,
leave a connection behind that holds the lock; it goes back to the pool, or stays checked out for
good.

The jobs of one lock are numbered, and `worker` is the worker in which a job runs.  A statement is
sent, then executed by the server, and then its result is read.  Without a pool the body ends with
an error before its first `await`: it cannot open the database.

Main definitions:

* `getLock`, `releaseLock` — what the server does;
* `JobLockState.step` — the steps of the jobs, with their failures and cancellations;
* `JobLockState.JobLock` — the law, `JobLockState.Clean` — the condition.

Main results:

* `JobLockState.invariant_step`, `JobLockState.owned_step` — what one step preserves;
* `JobLockState.jobLock_of_run` — **the law holds along the runs that meet the condition**;
* `JobLockState.not_jobLock_failedRelease` — a `RELEASE_LOCK` that fails leaves the lock in the
  pool.
-/

import Hygie.GuardedRuns

set_option relaxedAutoImplicit false
set_option autoImplicit false

namespace Hygie

/-! ### The server -/

/-- The connection that holds the lock, and how often. -/
abbrev AdvisoryLock := Option (ℕ × ℕ)

/-- `GET_LOCK(name, 0)` on a connection: the lock afterwards, and whether it is granted. -/
def getLock (lock : AdvisoryLock) (conn : ℕ) : AdvisoryLock × Bool :=
  match lock with
  | none => (some (conn, 1), true)
  | some (owner, depth) => if owner = conn then (some (owner, depth + 1), true) else (lock, false)

/-- `RELEASE_LOCK(name)` on a connection. -/
def releaseLock (lock : AdvisoryLock) (conn : ℕ) : AdvisoryLock :=
  match lock with
  | none => none
  | some (owner, depth) =>
      if owner = conn then if depth ≤ 1 then none else some (owner, depth - 1) else lock

/-! ### The jobs -/

inductive ConnPlace
  /-- Not opened yet. -/
  | fresh
  | pooled (worker : ℕ)
  | out (job : ℕ)
  deriving DecidableEq, Repr

/-- How far a job has come. -/
inductive JobStage
  | idle
  /-- For a connection of the pool. -/
  | waiting
  /-- `GET_LOCK` is sent, and then executed. -/
  | asking (conn : ℕ)
  | answered (conn : ℕ) (granted : Bool)
  | body
  /-- `RELEASE_LOCK` is sent, and then executed. -/
  | releasing (conn : ℕ)
  | released (conn : ℕ)
  | ended
  deriving DecidableEq, Repr

/-- The lock, the connections, and of each worker whether it has a pool, `_held` and `_conn`. -/
structure JobLockState where
  lock : AdvisoryLock
  place : ℕ → ConnPlace
  ready : ℕ → Bool
  held : ℕ → Bool
  conn : ℕ → Option ℕ
  stage : ℕ → JobStage

inductive JobAction
  | initPool (w : ℕ)
  | enter (i : ℕ)
  | connect (i conn : ℕ)
  | getLock (i : ℕ)
  /-- The answer of `GET_LOCK` is read. -/
  | proceed (i : ℕ)
  | failGet (i : ℕ)
  | cancelGet (i : ℕ)
  /-- The body ends, in whatever way. -/
  | leave (i : ℕ)
  | releaseLock (i : ℕ)
  | giveBack (i : ℕ)
  /-- `RELEASE_LOCK` fails or is cancelled, before it is executed or after. -/
  | abortRelease (i : ℕ)
  deriving DecidableEq, Repr

namespace JobLockState

variable (worker : ℕ → ℕ)

def setStage (s : JobLockState) (i : ℕ) (stage : JobStage) : JobLockState :=
  { s with stage := Function.update s.stage i stage }

def setPlace (s : JobLockState) (conn : ℕ) (place : ConnPlace) : JobLockState :=
  { s with place := Function.update s.place conn place }

/-- A connection goes back to the pool, and the job ends. -/
def giveBack (s : JobLockState) (i conn : ℕ) : JobLockState :=
  (s.setPlace conn (.pooled (worker i))).setStage i .ended

/-- The step function. -/
def step (s : JobLockState) : JobAction → Option JobLockState
  | .initPool w => some { s with ready := Function.update s.ready w true }
  | .enter i =>
      match s.stage i with
      | .idle =>
          if s.held (worker i) || !s.ready (worker i) then some (s.setStage i .ended)
          else some (s.setStage i .waiting)
      | _ => none
  | .connect i conn =>
      match s.stage i with
      | .waiting =>
          if s.place conn = .fresh ∨ s.place conn = .pooled (worker i) then
            some ((s.setPlace conn (.out i)).setStage i (.asking conn))
          else none
      | _ => none
  | .getLock i =>
      match s.stage i with
      | .asking conn =>
          let (lock, granted) := Hygie.getLock s.lock conn
          some ({ s with lock := lock }.setStage i (.answered conn granted))
      | _ => none
  | .proceed i =>
      match s.stage i with
      | .answered conn true =>
          some ({ s with
            conn := Function.update s.conn (worker i) (some conn)
            held := Function.update s.held (worker i) true }.setStage i .body)
      | .answered conn false => some (s.giveBack worker i conn)
      | _ => none
  | .failGet i =>
      match s.stage i with
      | .asking conn | .answered conn _ => some (s.giveBack worker i conn)
      | _ => none
  | .cancelGet i =>
      match s.stage i with
      | .waiting | .asking _ | .answered _ _ => some (s.setStage i .ended)
      | _ => none
  | .leave i =>
      match s.stage i with
      | .body =>
          let left := { s with
            conn := Function.update s.conn (worker i) none
            held := Function.update s.held (worker i) false }
          match s.conn (worker i) with
          | some conn => some (left.setStage i (.releasing conn))
          | none => some (left.setStage i .ended)
      | _ => none
  | .releaseLock i =>
      match s.stage i with
      | .releasing conn =>
          some ({ s with lock := Hygie.releaseLock s.lock conn }.setStage i (.released conn))
      | _ => none
  | .giveBack i =>
      match s.stage i with
      | .released conn => some (s.giveBack worker i conn)
      | _ => none
  | .abortRelease i =>
      match s.stage i with
      | .releasing conn | .released conn => some (s.giveBack worker i conn)
      | _ => none

/-- No worker has started. -/
def start : JobLockState where
  lock := none
  place := fun _ => .fresh
  ready := fun _ => false
  held := fun _ => false
  conn := fun _ => none
  stage := fun _ => .idle

/-! ### The law and the condition -/

/-- One job at a time is in the body, and while no job is under way nobody holds the lock. -/
structure JobLock (s : JobLockState) : Prop where
  exclusive : ∀ i j, s.stage i = .body → s.stage j = .body → i = j
  free : (∀ i, s.stage i = .idle ∨ s.stage i = .ended) → s.lock = none

/-- The condition: a `GET_LOCK` that is granted neither fails nor is cancelled, and a `RELEASE_LOCK`
does neither before it is executed. -/
def Clean (s : JobLockState) : JobAction → Prop
  | .failGet i | .cancelGet i => ∀ conn, s.stage i ≠ .answered conn true
  | .abortRelease i => ∀ conn, s.stage i ≠ .releasing conn
  | _ => True

/-! ### The invariant -/

/-- The connection of a job; in the body it is the one that its worker keeps. -/
def connOf (s : JobLockState) (i : ℕ) : Option ℕ :=
  match s.stage i with
  | .asking conn | .answered conn _ | .releasing conn | .released conn => some conn
  | .body => s.conn (worker i)
  | _ => none

/-- The lock is granted to a job, and not released. -/
def active (s : JobLockState) (i : ℕ) : Bool :=
  match s.stage i with
  | .answered _ granted => granted
  | .body | .releasing _ => true
  | _ => false

/-- What holds in every run: a job has its connection to itself, and to whom the lock is granted
holds it. -/
structure Invariant (s : JobLockState) : Prop where
  out : ∀ i conn, s.connOf worker i = some conn → s.place conn = .out i
  locked : ∀ i, s.active i = true → ∃ conn depth, s.connOf worker i = some conn ∧
    s.lock = some (conn, depth)

/-- What holds in the runs that meet the condition: who holds the lock is a job to which it is
granted. -/
def Owned (s : JobLockState) : Prop :=
  ∀ conn depth, s.lock = some (conn, depth) → depth = 1 ∧
    ∃ i, s.active i = true ∧ s.connOf worker i = some conn

/-- What a step of a job leaves alone for the others. -/
structure Others (i : ℕ) (s t : JobLockState) : Prop where
  stage : ∀ j, j ≠ i → t.stage j = s.stage j
  conn : ∀ j, j ≠ i → s.stage j = .body → t.conn (worker j) = s.conn (worker j)

section Steps

variable {worker} {s t : JobLockState} {action : JobAction} {i j : ℕ}

/-- The lock is granted to one job at a time. -/
theorem Invariant.unique (h : s.Invariant worker) (hi : s.active i = true)
    (hj : s.active j = true) :
    i = j := by
  obtain ⟨conn, depth, hconn, hlock⟩ := h.locked i hi
  obtain ⟨conn', depth', hconn', hlock'⟩ := h.locked j hj
  have hsame : conn = conn' := congrArg Prod.fst (Option.some.inj (hlock.symm.trans hlock'))
  have hout := h.out i conn hconn
  rw [hsame, h.out j conn' hconn'] at hout
  exact (ConnPlace.out.inj hout).symm

theorem Others.connOf (h : Others worker i s t) (hne : j ≠ i) :
    t.connOf worker j = s.connOf worker j := by
  unfold JobLockState.connOf
  rw [h.stage j hne]
  cases hstage : s.stage j with
  | body => exact h.conn j hne hstage
  | _ => rfl

theorem Others.active (h : Others worker i s t) (hne : j ≠ i) : t.active j = s.active j := by
  unfold JobLockState.active
  rw [h.stage j hne]

theorem others_setStage {stage : JobStage} (hconn : t.conn = s.conn) (hstage : t.stage = s.stage) :
    Others worker i s (t.setStage i stage) := by
  refine ⟨fun j hne => ?_, fun j _ _ => ?_⟩
  · rw [setStage, hstage]
    exact Function.update_of_ne hne _ _
  · simp [setStage, hconn]

/-- A step of a job keeps the invariant, if the connections of the others stay theirs, if its own
connection is its own, and if nobody but the job that holds the lock changes it. -/
theorem Invariant.move (h : s.Invariant worker) (hothers : Others worker i s t)
    (hplace : ∀ conn j, j ≠ i → s.place conn = .out j → t.place conn = .out j)
    (hout : ∀ conn, t.connOf worker i = some conn → t.place conn = .out i)
    (hlock : ∀ j, j ≠ i → s.active j = true → t.lock = s.lock)
    (hlocked : t.active i = true → ∃ conn depth, t.connOf worker i = some conn ∧
      t.lock = some (conn, depth)) : t.Invariant worker := by
  refine ⟨fun j conn hconn => ?_, fun j hj => ?_⟩
  · by_cases hne : j = i
    · subst hne
      exact hout conn hconn
    · rw [hothers.connOf hne] at hconn
      exact hplace conn j hne (h.out j conn hconn)
  · by_cases hne : j = i
    · subst hne
      exact hlocked hj
    · rw [hothers.active hne] at hj
      rw [hothers.connOf hne, hlock j hne hj]
      exact h.locked j hj

/-- The lock stays with who holds it, when another job makes a step. -/
theorem Owned.keep (h : s.Owned worker) (hothers : Others worker i s t) (hlock : t.lock = s.lock)
    (hidle : s.active i = false) : t.Owned worker := by
  intro conn depth howner
  rw [hlock] at howner
  obtain ⟨hdepth, j, hj, hconn⟩ := h conn depth howner
  have hne : j ≠ i := by
    rintro rfl
    rw [hidle] at hj
    cases hj
  exact ⟨hdepth, j, (hothers.active hne).trans hj, (hothers.connOf hne).trans hconn⟩

/-- The lock stays with the job that holds it, when that job makes a step with its connection. -/
theorem Owned.hold (h : s.Owned worker) (hinv : s.Invariant worker) (hlock : t.lock = s.lock)
    (hbefore : s.active i = true) (hafter : t.active i = true)
    (hconn : t.connOf worker i = s.connOf worker i) : t.Owned worker := by
  intro conn depth howner
  rw [hlock] at howner
  obtain ⟨hdepth, j, hj, hown⟩ := h conn depth howner
  obtain rfl := hinv.unique hj hbefore
  exact ⟨hdepth, j, hafter, hconn.trans hown⟩

/-! ### One lemma for each kind of step -/

/-- Who is granted the lock holds it. -/
theorem getLock_granted {lock : AdvisoryLock} {conn : ℕ} (h : (Hygie.getLock lock conn).2 = true) :
    ∃ depth, (Hygie.getLock lock conn).1 = some (conn, depth) := by
  unfold Hygie.getLock at h ⊢
  split at h
  · exact ⟨1, rfl⟩
  · next owner depth =>
      split_ifs at h ⊢ with howner
      · subst howner
        exact ⟨depth + 1, rfl⟩

/-- A connection that does not hold the lock does not get it from who holds it. -/
theorem getLock_refused {owner conn depth : ℕ} (hne : owner ≠ conn) :
    Hygie.getLock (some (owner, depth)) conn = (some (owner, depth), false) := by
  simp [Hygie.getLock, hne]

/-- The job ends, and its connection stays where it is. -/
theorem Invariant.ended (h : s.Invariant worker) : (s.setStage i .ended).Invariant worker := by
  refine h.move (others_setStage rfl rfl) (fun conn j _ hout => hout) (fun conn hconn => ?_)
    (fun _ _ _ => rfl) fun hactive => ?_
  · simp [connOf, setStage] at hconn
  · simp [active, setStage] at hactive

/-- The job ends, and gives its connection back. -/
theorem Invariant.giveBack {conn : ℕ} (h : s.Invariant worker)
    (hconn : s.connOf worker i = some conn) :
    (s.giveBack worker i conn).Invariant worker := by
  have hmine := h.out i conn hconn
  refine h.move (others_setStage rfl rfl) (fun conn' j hne hout => ?_) (fun conn' hconn' => ?_)
    (fun _ _ _ => rfl) fun hactive => ?_
  · -- the connection of another job is another one
    have hdiff : conn' ≠ conn := by
      rintro rfl
      rw [hmine] at hout
      exact hne (ConnPlace.out.inj hout).symm
    simp [JobLockState.giveBack, setStage, setPlace, hdiff, hout]
  · simp [JobLockState.giveBack, connOf, setStage] at hconn'
  · simp [JobLockState.giveBack, active, setStage] at hactive

theorem Owned.ended (h : s.Owned worker) (hidle : s.active i = false) :
    (s.setStage i .ended).Owned worker :=
  h.keep (others_setStage rfl rfl) rfl hidle

theorem Owned.giveBack {conn : ℕ} (h : s.Owned worker) (hidle : s.active i = false) :
    (s.giveBack worker i conn).Owned worker :=
  h.keep (others_setStage rfl rfl) rfl hidle

/-- The job that holds the lock is the only one that uses what its worker keeps. -/
theorem others_proceed {held : ℕ → Bool} {conn : Option ℕ} {stage : JobStage}
    (h : s.Invariant worker)
    (hactive : s.active i = true) :
    Others worker i s ({ s with
      conn := Function.update s.conn (worker i) conn, held := held }.setStage i stage) := by
  refine ⟨fun j hne => Function.update_of_ne hne _ _, fun j hne hbody => ?_⟩
  have hj : s.active j = true := by simp [active, hbody]
  exact absurd (h.unique hj hactive) hne

/-- **What one step preserves**, whatever goes wrong. -/
theorem invariant_step (h : s.Invariant worker) (hstep : s.step worker action = some t) :
    t.Invariant worker := by
  cases action with
  | initPool w =>
      obtain rfl := Option.some.inj hstep
      exact ⟨h.out, h.locked⟩
  | enter i =>
      simp only [step] at hstep
      split at hstep
      · split_ifs at hstep
        · cases hstep
          exact h.ended
        · cases hstep
          refine h.move (others_setStage rfl rfl) (fun _ _ _ hout => hout) (fun conn hconn => ?_)
            (fun _ _ _ => rfl) fun hactive => ?_
          · simp [connOf, setStage] at hconn
          · simp [active, setStage] at hactive
      · cases hstep
  | connect i conn =>
      simp only [step] at hstep
      split at hstep
      · split_ifs at hstep with hfree
        cases hstep
        refine h.move (others_setStage rfl rfl) (fun conn' j _ hout => ?_) (fun conn' hconn' => ?_)
          (fun _ _ _ => rfl) fun hactive => ?_
        · -- a connection that another job has is not free
          have hdiff : conn' ≠ conn := by
            rintro rfl
            rw [hout] at hfree
            rcases hfree with hfree | hfree <;> cases hfree
          simp [setStage, setPlace, hdiff, hout]
        · obtain rfl : conn = conn' := by simpa [connOf, setStage] using hconn'
          simp [setStage, setPlace]
        · simp [active, setStage] at hactive
      · cases hstep
  | getLock i =>
      simp only [step] at hstep
      split at hstep
      · next conn hstage =>
          cases hstep
          have hmine : s.connOf worker i = some conn := by simp [connOf, hstage]
          refine h.move (others_setStage rfl rfl) (fun _ _ _ hout => hout) (fun conn' hconn' => ?_)
            (fun j hne hj => ?_) fun hactive => ?_
          · obtain rfl : conn = conn' := by simpa [connOf, setStage] using hconn'
            exact h.out i conn hmine
          · -- whoever holds the lock holds it on another connection
            obtain ⟨conn', depth, hconn', hlock⟩ := h.locked j hj
            have hdiff : conn' ≠ conn := by
              rintro rfl
              have hout := h.out i conn' hmine
              rw [h.out j conn' hconn'] at hout
              exact hne (ConnPlace.out.inj hout)
            simp [setStage, hlock, getLock_refused hdiff]
          · have hgranted : (Hygie.getLock s.lock conn).2 = true := by
              simpa [active, setStage] using hactive
            obtain ⟨depth, hlock⟩ := getLock_granted hgranted
            exact ⟨conn, depth, by simp [connOf, setStage], hlock⟩
      · cases hstep
  | proceed i =>
      simp only [step] at hstep
      split at hstep
      · next conn hstage =>
          cases hstep
          have hactive : s.active i = true := by simp [active, hstage]
          have hmine : s.connOf worker i = some conn := by simp [connOf, hstage]
          refine h.move (others_proceed h hactive) (fun _ _ _ hout => hout) (fun conn' hconn' => ?_)
            (fun _ _ _ => rfl) fun _ => ?_
          · obtain rfl : conn = conn' := by simpa [connOf, setStage] using hconn'
            exact h.out i conn hmine
          · obtain ⟨conn', depth, hconn', hlock⟩ := h.locked i hactive
            obtain rfl : conn = conn' := Option.some.inj (hmine.symm.trans hconn')
            exact ⟨conn, depth, by simp [connOf, setStage], hlock⟩
      · next hstage =>
          cases hstep
          exact h.giveBack (by simp [connOf, hstage])
      · cases hstep
  | failGet i =>
      simp only [step] at hstep
      split at hstep
      · next hstage =>
          cases hstep
          exact h.giveBack (by simp [connOf, hstage])
      · next hstage =>
          cases hstep
          exact h.giveBack (by simp [connOf, hstage])
      · cases hstep
  | cancelGet i =>
      simp only [step] at hstep
      split at hstep <;> cases hstep <;> exact h.ended
  | leave i =>
      simp only [step] at hstep
      split at hstep
      · next hstage =>
          have hactive : s.active i = true := by simp [active, hstage]
          obtain ⟨conn, depth, hmine, hlock⟩ := h.locked i hactive
          have hkept : s.conn (worker i) = some conn := by simpa [connOf, hstage] using hmine
          simp only [hkept] at hstep
          cases hstep
          refine h.move (others_proceed h hactive) (fun _ _ _ hout => hout) (fun conn' hconn' => ?_)
            (fun _ _ _ => rfl) fun _ => ⟨conn, depth, by simp [connOf, setStage], hlock⟩
          obtain rfl : conn = conn' := by simpa [connOf, setStage] using hconn'
          exact h.out i conn hmine
      · cases hstep
  | releaseLock i =>
      simp only [step] at hstep
      split at hstep
      · next conn hstage =>
          cases hstep
          have hactive : s.active i = true := by simp [active, hstage]
          have hmine : s.connOf worker i = some conn := by simp [connOf, hstage]
          -- nobody else is active, so the release takes the lock from nobody
          refine h.move (others_setStage rfl rfl) (fun _ _ _ hout => hout) (fun conn' hconn' => ?_)
            (fun j hne hj => absurd (h.unique hj hactive) hne) fun hreleased => ?_
          · obtain rfl : conn = conn' := by simpa [connOf, setStage] using hconn'
            exact h.out i conn hmine
          · simp [active, setStage] at hreleased
      · cases hstep
  | giveBack i =>
      simp only [step] at hstep
      split at hstep
      · next hstage =>
          cases hstep
          exact h.giveBack (by simp [connOf, hstage])
      · cases hstep
  | abortRelease i =>
      simp only [step] at hstep
      split at hstep
      · next hstage =>
          cases hstep
          exact h.giveBack (by simp [connOf, hstage])
      · next hstage =>
          cases hstep
          exact h.giveBack (by simp [connOf, hstage])
      · cases hstep

/-- What one step preserves if it meets the condition: the lock is held by a job. -/
theorem owned_step (h : s.Owned worker) (hinv : s.Invariant worker) (hok : s.Clean action)
    (hstep : s.step worker action = some t) : t.Owned worker := by
  cases action with
  | initPool w =>
      obtain rfl := Option.some.inj hstep
      exact h
  | enter i =>
      simp only [step] at hstep
      split at hstep
      · next hstage =>
          have hidle : s.active i = false := by simp [active, hstage]
          split_ifs at hstep <;> cases hstep <;> exact h.keep (others_setStage rfl rfl) rfl hidle
      · cases hstep
  | connect i conn =>
      simp only [step] at hstep
      split at hstep
      · next hstage =>
          split_ifs at hstep
          cases hstep
          exact h.keep (others_setStage rfl rfl) rfl (by simp [active, hstage])
      · cases hstep
  | getLock i =>
      simp only [step] at hstep
      split at hstep
      · next conn hstage =>
          cases hstep
          have hmine : s.connOf worker i = some conn := by simp [connOf, hstage]
          have hidle : s.active i = false := by simp [active, hstage]
          cases hlock : s.lock with
          | none =>
              intro conn' depth howner
              obtain ⟨rfl, rfl⟩ : conn = conn' ∧ 1 = depth := by
                simpa [setStage, Hygie.getLock, hlock] using howner
              exact ⟨rfl, i, by simp [active, setStage, Hygie.getLock], by simp [connOf, setStage]⟩
          | some owner =>
              obtain ⟨owner, depth⟩ := owner
              -- another job holds it, on its own connection
              obtain ⟨_, j, hj, hconn⟩ := h owner depth hlock
              have hdiff : owner ≠ conn := by
                rintro rfl
                have hout := hinv.out i owner hmine
                rw [hinv.out j owner hconn] at hout
                rw [ConnPlace.out.inj hout, hidle] at hj
                cases hj
              refine h.keep (others_setStage rfl rfl) ?_ hidle
              simp [setStage, hlock, getLock_refused hdiff]
      · cases hstep
  | proceed i =>
      simp only [step] at hstep
      split at hstep
      · next conn hstage =>
          cases hstep
          refine h.hold hinv rfl (i := i) ?_ ?_ ?_
          · simp [active, hstage]
          · simp [active, setStage]
          · simp [connOf, setStage, hstage]
      · next hstage =>
          cases hstep
          exact h.giveBack (by simp [active, hstage])
      · cases hstep
  | failGet i =>
      simp only [step] at hstep
      split at hstep
      · next hstage =>
          cases hstep
          exact h.giveBack (by simp [active, hstage])
      · next conn granted hstage =>
          cases hstep
          cases granted with
          | true => exact absurd hstage (hok conn)
          | false => exact h.giveBack (by simp [active, hstage])
      · cases hstep
  | cancelGet i =>
      simp only [step] at hstep
      split at hstep
      · next hstage =>
          cases hstep
          exact h.ended (by simp [active, hstage])
      · next hstage =>
          cases hstep
          exact h.ended (by simp [active, hstage])
      · next conn granted hstage =>
          cases hstep
          cases granted with
          | true => exact absurd hstage (hok conn)
          | false => exact h.ended (by simp [active, hstage])
      · cases hstep
  | leave i =>
      simp only [step] at hstep
      split at hstep
      · next hstage =>
          have hactive : s.active i = true := by simp [active, hstage]
          obtain ⟨conn, _, hmine, _⟩ := hinv.locked i hactive
          have hkept : s.conn (worker i) = some conn := by simpa [connOf, hstage] using hmine
          simp only [hkept] at hstep
          cases hstep
          refine h.hold hinv rfl hactive ?_ ?_
          · simp [active, setStage]
          · simp [connOf, setStage, hstage, hkept]
      · cases hstep
  | releaseLock i =>
      simp only [step] at hstep
      split at hstep
      · next conn hstage =>
          cases hstep
          have hactive : s.active i = true := by simp [active, hstage]
          obtain ⟨conn', depth, hmine, hlock⟩ := hinv.locked i hactive
          obtain rfl : conn = conn' := by simpa [connOf, hstage] using hmine
          obtain ⟨rfl, _⟩ := h conn depth hlock
          intro owner depth howner
          simp [setStage, hlock, Hygie.releaseLock] at howner
      · cases hstep
  | giveBack i =>
      simp only [step] at hstep
      split at hstep
      · next hstage =>
          cases hstep
          exact h.giveBack (by simp [active, hstage])
      · cases hstep
  | abortRelease i =>
      simp only [step] at hstep
      split at hstep
      · next conn hstage => exact absurd hstage (hok conn)
      · next hstage =>
          cases hstep
          exact h.giveBack (by simp [active, hstage])
      · cases hstep

/-! ### Runs -/

theorem invariant_start : start.Invariant worker := by
  refine ⟨fun i conn hconn => ?_, fun i hactive => ?_⟩
  · simp [start, connOf] at hconn
  · simp [start, active] at hactive

/-- No two jobs are in the body, in any run. -/
theorem exclusive_of_run {ok : JobLockState → JobAction → Prop} {actions : List JobAction}
    (hrun : GuardedRun (step worker) ok start actions s) (hi : s.stage i = .body)
    (hj : s.stage j = .body) :
    i = j := by
  have hinv : s.Invariant worker :=
    hrun.invariant invariant_start fun _ _ _ h _ hstep => invariant_step h hstep
  refine hinv.unique ?_ ?_
  · simp [active, hi]
  · simp [active, hj]

/-- **The law holds along the runs that meet the condition**: one job at a time is in the body, and
while none is under way nobody holds the lock. -/
theorem jobLock_of_run {actions : List JobAction}
    (hrun : GuardedRun (step worker) Clean start actions s) :
    s.JobLock := by
  refine ⟨fun i j hi hj => exclusive_of_run hrun hi hj, fun hquiet => ?_⟩
  have hboth : s.Invariant worker ∧ s.Owned worker := by
    refine hrun.invariant (I := fun s => s.Invariant worker ∧ s.Owned worker)
      ⟨invariant_start, nofun⟩ ?_
    exact fun _ _ _ h hok hstep => ⟨invariant_step h.1 hstep, owned_step h.2 h.1 hok hstep⟩
  cases hlock : s.lock with
  | none => rfl
  | some owner =>
      obtain ⟨conn, depth⟩ := owner
      obtain ⟨_, i, hactive, _⟩ := hboth.2 conn depth hlock
      rcases hquiet i with hstage | hstage <;> simp [active, hstage] at hactive

/-- Two workers; the second one is refused, and the first one releases the lock. -/
theorem jobLock_of_run_refused : ∃ s : JobLockState,
    GuardedRun (step id) Clean start [.initPool 0, .initPool 1, .enter 0, .enter 1, .connect 0 5,
      .connect 1 6, .getLock 0, .getLock 1, .proceed 0, .proceed 1, .leave 0, .releaseLock 0,
      .giveBack 0] s ∧
      s.lock = none ∧ s.place 5 = .pooled 0 ∧ s.JobLock := by
  have hrun : ∃ s : JobLockState,
      GuardedRun (step id) Clean start [.initPool 0, .initPool 1, .enter 0, .enter 1, .connect 0 5,
        .connect 1 6, .getLock 0, .getLock 1, .proceed 0, .proceed 1, .leave 0, .releaseLock 0,
        .giveBack 0] s ∧ s.lock = none ∧ s.place 5 = .pooled 0 :=
    ⟨_, .cons trivial rfl (.cons trivial rfl (.cons trivial rfl (.cons trivial rfl
      (.cons trivial rfl (.cons trivial rfl (.cons trivial rfl (.cons trivial rfl
        (.cons trivial rfl (.cons trivial rfl (.cons trivial rfl (.cons trivial rfl
          (.cons trivial rfl .nil)))))))))))), rfl, rfl⟩
  obtain ⟨s, hrun, hlock, hplace⟩ := hrun
  exact ⟨s, hrun, hlock, hplace, jobLock_of_run hrun⟩

/-- The `RELEASE_LOCK` of a job fails, or is cancelled, before the server has executed it. -/
def failedRelease : List JobAction :=
  [.initPool 0, .enter 0, .connect 0 5, .getLock 0, .proceed 0, .leave 0, .abortRelease 0]

/-- No job is under way, and a connection in the pool holds the lock. -/
theorem not_jobLock_failedRelease :
    ¬ ∀ (worker : ℕ → ℕ) actions s,
      GuardedRun (step worker) (fun _ _ => True) start actions s → s.JobLock := by
  intro hclaim
  have hrun : ∃ s : JobLockState, GuardedRun (step id) (fun _ _ => True) start failedRelease s ∧
      s.lock = some (5, 1) ∧ s.place 5 = .pooled 0 ∧
      ∀ i, s.stage i = .idle ∨ s.stage i = .ended := by
    refine ⟨_, .cons trivial rfl (.cons trivial rfl (.cons trivial rfl (.cons trivial rfl
      (.cons trivial rfl (.cons trivial rfl (.cons trivial rfl .nil)))))), rfl, rfl, fun i => ?_⟩
    by_cases hi : i = 0
    · subst hi
      exact .inr rfl
    · refine .inl ?_
      simp [JobLockState.giveBack, setStage, setPlace, start, hi]
  obtain ⟨s, hrun, hlock, _, hquiet⟩ := hrun
  have hfree := (hclaim id failedRelease s hrun).free hquiet
  rw [hlock] at hfree
  cases hfree

end Steps

end JobLockState

end Hygie
