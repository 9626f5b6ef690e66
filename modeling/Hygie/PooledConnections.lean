/-
**The pooled connections of MariaDB.**

The pool runs without autocommit, so the first statement of a block opens a transaction, a `SELECT`
as well as a write.  A block that ends with an exception rolls back, and closes its connection when
the rollback fails or is cancelled.  A block that ends normally rolls back, too; but when this
rollback fails or is cancelled, the connection is given back as it is.  The pool closes a connection
whose last server status says that it is in a transaction, and that status is set by writes, not by
reads: what comes back to the pool then is a snapshot that is still open.

A transaction bears the number of the block that has opened it, so that a block that sees the work
of another one works in a transaction with another number.  A statement may be executed without its
answer being read, and a connection may be lost while a block has it; the server then drops its
transaction.

Main definitions:

* `RawConn` — a connection, with its transaction on the server and the status that the client has
  read;
* `PoolState.step` — the steps of the blocks of `get_db`, with every way in which they end;
* `PoolState.CleanPool` — the law, `PoolState.Finished` — the condition.

Main results:

* `PoolState.invariant_step` — what one step preserves;
* `PoolState.cleanPool_of_run` — **the law holds along the runs that meet the condition**;
* `PoolState.not_cleanPool_finalRollback` — a final rollback that fails leaves a snapshot in the
  pool.
-/

import Hygie.GuardedRuns

set_option relaxedAutoImplicit false
set_option autoImplicit false

namespace Hygie

/-! ### The connections -/

/-- A transaction that is open on the server. -/
structure DbTransaction where
  opener : ℕ
  /-- There is work in it that is not committed. -/
  dirty : Bool
  deriving DecidableEq, Repr

structure RawConn where
  closed : Bool
  /-- `SERVER_STATUS_IN_TRANS`, as the client has last read it. -/
  inTrans : Bool
  transaction : Option DbTransaction
  deriving DecidableEq, Repr

namespace RawConn

def opened : RawConn where
  closed := false
  inTrans := false
  transaction := none

/-- A statement of a block: it opens a transaction if there is none. -/
def execute (raw : RawConn) (block : ℕ) (writes answered : Bool) : RawConn :=
  { raw with
    inTrans := raw.inTrans || (writes && answered)
    transaction :=
      match raw.transaction with
      | none => some ⟨block, writes⟩
      | some tx => some { tx with dirty := tx.dirty || writes } }

/-- `COMMIT` or `ROLLBACK`, as the server executes it. -/
def finish (raw : RawConn) (answered : Bool) : RawConn :=
  { raw with inTrans := raw.inTrans && !answered, transaction := none }

/-- The connection is closed; the server drops its transaction. -/
def close (raw : RawConn) : RawConn :=
  { raw with closed := true, transaction := none }

end RawConn

inductive PoolPlace
  | fresh | free
  | out (block : ℕ)
  | gone
  deriving DecidableEq, Repr

/-! ### The blocks -/

/-- How far a block of `get_db` has come. -/
inductive BlockStage
  | idle
  /-- At `raw.autocommit(False)`. -/
  | preparing (conn : ℕ)
  | inside (conn : ℕ)
  /-- At the rollback after an exception or a cancellation. -/
  | unwinding (conn : ℕ)
  /-- At the rollback after a normal exit. -/
  | finishing (conn : ℕ)
  | ended
  deriving DecidableEq, Repr

structure PoolState where
  raw : ℕ → RawConn
  place : ℕ → PoolPlace
  stage : ℕ → BlockStage

inductive PoolAction
  | enter (i conn : ℕ)
  | prepare (i : ℕ)
  | failPrepare (i : ℕ)
  | execute (i : ℕ) (writes answered : Bool)
  | commit (i : ℕ) (answered : Bool)
  /-- The connection is lost. -/
  | lose (i : ℕ)
  /-- The block raises, or is cancelled. -/
  | throw (i : ℕ)
  /-- The block ends normally. -/
  | leave (i : ℕ)
  | rollback (i : ℕ)
  /-- The rollback raises or is cancelled, after it has been executed or without. -/
  | failRollback (i : ℕ) (executed : Bool)
  deriving DecidableEq, Repr

/-- The connection of a block. -/
def BlockStage.conn : BlockStage → Option ℕ
  | .preparing conn | .inside conn | .unwinding conn | .finishing conn => some conn
  | _ => none

namespace PoolState

def setStage (s : PoolState) (i : ℕ) (stage : BlockStage) : PoolState :=
  { s with stage := Function.update s.stage i stage }

def setRaw (s : PoolState) (conn : ℕ) (raw : RawConn) : PoolState :=
  { s with raw := Function.update s.raw conn raw }

/-- The pool gets a connection back, and closes it if its status says that it is in a transaction.
-/
def release (s : PoolState) (conn : ℕ) : PoolState :=
  if (s.raw conn).closed then { s with place := Function.update s.place conn .gone }
  else if (s.raw conn).inTrans then
    { s.setRaw conn (s.raw conn).close with place := Function.update s.place conn .gone }
  else { s with place := Function.update s.place conn .free }

/-- The step function. -/
def step (s : PoolState) : PoolAction → Option PoolState
  | .enter i conn =>
      match s.stage i, s.place conn with
      | .idle, .free =>
          some
            { s.setStage i (.preparing conn) with place := Function.update s.place conn (.out i) }
      | .idle, .fresh =>
          some { (s.setStage i (.preparing conn)).setRaw conn .opened with
            place := Function.update s.place conn (.out i) }
      | _, _ => none
  | .prepare i =>
      match s.stage i with
      | .preparing conn => some (s.setStage i (.inside conn))
      | _ => none
  | .failPrepare i =>
      match s.stage i with
      | .preparing conn => some ((s.release conn).setStage i .ended)
      | _ => none
  | .execute i writes answered =>
      match s.stage i with
      | .inside conn =>
          if (s.raw conn).closed then none
          else some (s.setRaw conn ((s.raw conn).execute i writes answered))
      | _ => none
  | .commit i answered =>
      match s.stage i with
      | .inside conn =>
          if (s.raw conn).closed then none else some (s.setRaw conn ((s.raw conn).finish answered))
      | _ => none
  | .lose i =>
      match (s.stage i).conn with
      | some conn => some (s.setRaw conn (s.raw conn).close)
      | none => none
  | .throw i =>
      match s.stage i with
      | .inside conn => some (s.setStage i (.unwinding conn))
      | _ => none
  | .leave i =>
      match s.stage i with
      | .inside conn => some (s.setStage i (.finishing conn))
      | _ => none
  | .rollback i =>
      match s.stage i with
      | .unwinding conn | .finishing conn =>
          if (s.raw conn).closed then none
          else some (((s.setRaw conn ((s.raw conn).finish true)).release conn).setStage i .ended)
      | _ => none
  | .failRollback i executed =>
      match s.stage i with
      | .unwinding conn =>
          -- the connection is closed before the exception goes on
          some (((s.setRaw conn (s.raw conn).close).release conn).setStage i .ended)
      | .finishing conn =>
          let raw := if executed then (s.raw conn).finish false else s.raw conn
          some (((s.setRaw conn raw).release conn).setStage i .ended)
      | _ => none

def start : PoolState where
  raw := fun _ => .opened
  place := fun _ => .fresh
  stage := fun _ => .idle

/-! ### The law and the condition -/

/-- A connection in the pool has no transaction open, and a block works in a transaction of its own.
-/
structure CleanPool (s : PoolState) : Prop where
  returned : ∀ conn, s.place conn = .free → (s.raw conn).transaction = none
  own : ∀ i conn tx, (s.stage i).conn = some conn → (s.raw conn).transaction = some tx →
    tx.opener = i

/-- The condition: a rollback after a normal exit that fails or is cancelled has been executed, or
leaves nothing behind: no transaction is open, or the pool sees it. -/
def Finished (s : PoolState) : PoolAction → Prop
  | .failRollback i executed => ∀ conn, s.stage i = .finishing conn →
      executed = true ∨ (s.raw conn).transaction = none ∨ (s.raw conn).inTrans = true
  | _ => True

/-! ### The invariant -/

/-- What holds in the runs that meet the condition. -/
structure Invariant (s : PoolState) : Prop where
  out : ∀ i conn, (s.stage i).conn = some conn → s.place conn = .out i
  prepared : ∀ i conn, s.stage i = .preparing conn → (s.raw conn).transaction = none
  clean : s.CleanPool

/-- A connection goes to a place, while a block comes to a stage. -/
def put (s : PoolState) (conn : ℕ) (raw : RawConn) (place : PoolPlace) (i : ℕ)
    (stage : BlockStage) :
    PoolState where
  raw := Function.update s.raw conn raw
  place := Function.update s.place conn place
  stage := Function.update s.stage i stage

section Steps

variable {s t : PoolState} {action : PoolAction} {i conn : ℕ}

@[simp] theorem setRaw_raw (raw : RawConn) :
    (s.setRaw conn raw).raw = Function.update s.raw conn raw := rfl

@[simp] theorem put_raw (raw : RawConn) (place : PoolPlace) (stage : BlockStage) :
    (s.put conn raw place i stage).raw = Function.update s.raw conn raw := rfl

@[simp] theorem put_place (raw : RawConn) (place : PoolPlace) (stage : BlockStage) :
    (s.put conn raw place i stage).place = Function.update s.place conn place := rfl

@[simp] theorem put_stage (raw : RawConn) (place : PoolPlace) (stage : BlockStage) :
    (s.put conn raw place i stage).stage = Function.update s.stage i stage := rfl

/-- A connection is out to one block. -/
theorem Invariant.unique {j : ℕ} (h : s.Invariant) (hi : (s.stage i).conn = some conn)
    (hj : (s.stage j).conn = some conn) : i = j := by
  have hout := h.out i conn hi
  rw [h.out j conn hj] at hout
  exact (PoolPlace.out.inj hout).symm

/-- A block works on its connection, in a transaction of its own. -/
theorem Invariant.setRaw {raw : RawConn} (h : s.Invariant) (hconn : (s.stage i).conn = some conn)
    (hprepared : s.stage i = .preparing conn → raw.transaction = none)
    (hown : ∀ tx, raw.transaction = some tx → tx.opener = i) : (s.setRaw conn raw).Invariant := by
  refine ⟨h.out, fun j conn' hj => ?_, fun conn' hfree => ?_, fun j conn' tx hj htx => ?_⟩
  · have hj' : s.stage j = .preparing conn' := hj
    by_cases hsame : conn' = conn
    · subst hsame
      obtain rfl := h.unique hconn (by rw [hj']; rfl)
      rw [setRaw_raw, Function.update_self]
      exact hprepared hj'
    · rw [setRaw_raw, Function.update_of_ne hsame]
      exact h.prepared j conn' hj'
  · -- a connection in the pool is another one
    have hne : conn' ≠ conn := by
      rintro rfl
      have hfree' : s.place conn' = .free := hfree
      rw [h.out i conn' hconn] at hfree'
      cases hfree'
    rw [setRaw_raw, Function.update_of_ne hne]
    exact h.clean.returned conn' hfree
  · by_cases hsame : conn' = conn
    · subst hsame
      rw [setRaw_raw, Function.update_self] at htx
      rw [hown tx htx]
      exact h.unique hconn hj
    · rw [setRaw_raw, Function.update_of_ne hsame] at htx
      exact h.clean.own j conn' tx hj htx

/-- A block goes on with its connection. -/
theorem Invariant.setStage {stage : BlockStage} (h : s.Invariant)
    (hconn : (s.stage i).conn = some conn)
    (hstage : stage.conn = some conn) (hnew : ∀ conn', stage ≠ .preparing conn') :
    (s.setStage i stage).Invariant := by
  have hback : ∀ j conn', (Function.update s.stage i stage j).conn = some conn' →
      (s.stage j).conn = some conn' := by
    intro j conn' hj
    by_cases hne : j = i
    · subst hne
      rw [Function.update_self, hstage] at hj
      rw [hconn, hj]
    · rwa [Function.update_of_ne hne] at hj
  refine ⟨fun j conn' hj => h.out j conn' (hback j conn' hj), fun j conn' hj => ?_,
    h.clean.returned, fun j conn' tx hj htx => h.clean.own j conn' tx (hback j conn' hj) htx⟩
  have hj' : Function.update s.stage i stage j = .preparing conn' := hj
  by_cases hne : j = i
  · rw [hne, Function.update_self] at hj'
    exact absurd hj' (hnew conn')
  · rw [Function.update_of_ne hne] at hj'
    exact h.prepared j conn' hj'

/-- A connection goes to another place, with no transaction if it goes to the pool, and with one of
the block if it goes to the block. -/
theorem Invariant.put {raw : RawConn} {place : PoolPlace} {stage : BlockStage} (h : s.Invariant)
    (hothers : ∀ j conn', j ≠ i → (s.stage j).conn = some conn' → conn' ≠ conn)
    (hplace : place = .free → raw.transaction = none)
    (hstage : ∀ conn', stage.conn = some conn' →
      conn' = conn ∧ place = .out i ∧ raw.transaction = none) :
    (s.put conn raw place i stage).Invariant := by
  have hcase : ∀ j conn', ((s.put conn raw place i stage).stage j).conn = some conn' →
      j = i ∧ stage.conn = some conn' ∨ j ≠ i ∧ (s.stage j).conn = some conn' ∧ conn' ≠ conn := by
    intro j conn' hj
    by_cases hne : j = i
    · subst hne
      rw [put_stage, Function.update_self] at hj
      exact .inl ⟨rfl, hj⟩
    · rw [put_stage, Function.update_of_ne hne] at hj
      exact .inr ⟨hne, hj, hothers j conn' hne hj⟩
  refine ⟨fun j conn' hj => ?_, fun j conn' hj => ?_, fun conn' hfree => ?_,
    fun j conn' tx hj htx => ?_⟩
  · rcases hcase j conn' hj with ⟨rfl, hmine⟩ | ⟨_, hold, hne⟩
    · obtain ⟨rfl, rfl, _⟩ := hstage conn' hmine
      rw [put_place, Function.update_self]
    · rw [put_place, Function.update_of_ne hne]
      exact h.out j conn' hold
  · rcases hcase j conn' (by rw [hj]; rfl) with ⟨rfl, hmine⟩ | ⟨hji, _, hne⟩
    · obtain ⟨rfl, _, hnone⟩ := hstage conn' hmine
      rw [put_raw, Function.update_self]
      exact hnone
    · rw [put_stage, Function.update_of_ne hji] at hj
      rw [put_raw, Function.update_of_ne hne]
      exact h.prepared j conn' hj
  · by_cases hsame : conn' = conn
    · subst hsame
      rw [put_place, Function.update_self] at hfree
      rw [put_raw, Function.update_self]
      exact hplace hfree
    · rw [put_place, Function.update_of_ne hsame] at hfree
      rw [put_raw, Function.update_of_ne hsame]
      exact h.clean.returned conn' hfree
  · rcases hcase j conn' hj with ⟨rfl, hmine⟩ | ⟨_, hold, hne⟩
    · obtain ⟨rfl, _, hnone⟩ := hstage conn' hmine
      rw [put_raw, Function.update_self, hnone] at htx
      cases htx
    · rw [put_raw, Function.update_of_ne hne] at htx
      exact h.clean.own j conn' tx hold htx

/-- A block ends and gives its connection back, if no transaction is open or the pool sees it. -/
theorem Invariant.release (h : s.Invariant) (hconn : (s.stage i).conn = some conn)
    (hdone : (s.raw conn).transaction = none ∨ (s.raw conn).inTrans = true) :
    ((s.release conn).setStage i .ended).Invariant := by
  -- the other blocks have other connections
  have hothers : ∀ j conn', j ≠ i → (s.stage j).conn = some conn' → conn' ≠ conn := by
    rintro j conn' hne hj rfl
    exact hne (h.unique hj hconn)
  unfold PoolState.release
  split_ifs with hclosed hstatus
  · have hgone : (s.put conn (s.raw conn) .gone i .ended).Invariant := h.put hothers nofun nofun
    rwa [PoolState.put, Function.update_eq_self] at hgone
  · exact h.put hothers nofun nofun
  · have hfree : (s.put conn (s.raw conn) .free i .ended).Invariant :=
      h.put hothers (fun _ => hdone.resolve_right hstatus) nofun
    rwa [PoolState.put, Function.update_eq_self] at hfree

/-- A block gives its connection back after its rollback, in whatever way that has ended. -/
theorem Invariant.rolledBack {raw : RawConn} (h : s.Invariant)
    (hconn : (s.stage i).conn = some conn)
    (hprepared : s.stage i ≠ .preparing conn)
    (hown : ∀ tx, raw.transaction = some tx → tx.opener = i)
    (hdone : raw.transaction = none ∨ raw.inTrans = true) :
    (((s.setRaw conn raw).release conn).setStage i .ended).Invariant := by
  have hraw := h.setRaw hconn (fun hpreparing => absurd hpreparing hprepared) hown
  have hdone' : ((s.setRaw conn raw).raw conn).transaction = none ∨
      ((s.setRaw conn raw).raw conn).inTrans = true := by
    rw [setRaw_raw, Function.update_self]
    exact hdone
  exact hraw.release hconn hdone'

/-- A block gets a connection that is not out, and has no transaction open. -/
theorem Invariant.enter {raw : RawConn} (h : s.Invariant) (hfree : ∀ j, s.place conn ≠ .out j)
    (hraw : raw.transaction = none) :
    (s.put conn raw (.out i) i (.preparing conn)).Invariant := by
  refine h.put (fun j conn' _ hj => ?_) nofun fun conn' hconn' => ?_
  · rintro rfl
    exact hfree j (h.out j conn' hj)
  · exact ⟨(Option.some.inj hconn').symm, rfl, hraw⟩

theorem RawConn.execute_opener {raw : RawConn} {writes answered : Bool}
    (hown : ∀ tx, raw.transaction = some tx → tx.opener = i) :
    ∀ tx, (raw.execute i writes answered).transaction = some tx → tx.opener = i := by
  intro tx htx
  unfold RawConn.execute at htx
  cases hraw : raw.transaction with
  | none =>
      simp only [hraw] at htx
      obtain rfl := Option.some.inj htx
      rfl
  | some before =>
      simp only [hraw] at htx
      obtain rfl := Option.some.inj htx
      exact hown before hraw

/-- **What one step preserves.** -/
theorem invariant_step (h : s.Invariant) (hok : s.Finished action)
    (hstep : s.step action = some t) :
    t.Invariant := by
  cases action with
  | enter i conn =>
      simp only [step] at hstep
      split at hstep
      · next hidle hplace =>
          cases hstep
          -- a connection of the pool keeps what the last block left on it
          have hnew : (s.put conn (s.raw conn) (.out i) i (.preparing conn)).Invariant :=
            h.enter (by rw [hplace]; nofun) (h.clean.returned conn hplace)
          rwa [PoolState.put, Function.update_eq_self] at hnew
      · next hidle hplace =>
          cases hstep
          have hnew : (s.put conn .opened (.out i) i (.preparing conn)).Invariant :=
            h.enter (by rw [hplace]; nofun) rfl
          exact hnew
      · cases hstep
  | prepare i =>
      simp only [step] at hstep
      split at hstep
      · next hstage =>
          cases hstep
          exact h.setStage (by rw [hstage]; rfl) rfl nofun
      · cases hstep
  | failPrepare i =>
      simp only [step] at hstep
      split at hstep
      · next conn hstage =>
          cases hstep
          exact h.release (by rw [hstage]; rfl) (.inl (h.prepared i conn hstage))
      · cases hstep
  | execute i writes answered =>
      simp only [step] at hstep
      split at hstep
      · next conn hstage =>
          split_ifs at hstep
          cases hstep
          have hconn : (s.stage i).conn = some conn := by rw [hstage]; rfl
          refine h.setRaw hconn (fun hpreparing => ?_) ?_
          · rw [hstage] at hpreparing
            cases hpreparing
          · exact RawConn.execute_opener fun tx htx => h.clean.own i conn tx hconn htx
      · cases hstep
  | commit i answered =>
      simp only [step] at hstep
      split at hstep
      · next conn hstage =>
          split_ifs at hstep
          cases hstep
          exact h.setRaw (i := i) (by rw [hstage]; rfl) (fun _ => rfl) nofun
      · cases hstep
  | lose i =>
      simp only [step] at hstep
      split at hstep
      · next conn hconn =>
          cases hstep
          exact h.setRaw hconn (fun _ => rfl) nofun
      · cases hstep
  | throw i =>
      simp only [step] at hstep
      split at hstep
      · next hstage =>
          cases hstep
          exact h.setStage (by rw [hstage]; rfl) rfl nofun
      · cases hstep
  | leave i =>
      simp only [step] at hstep
      split at hstep
      · next hstage =>
          cases hstep
          exact h.setStage (by rw [hstage]; rfl) rfl nofun
      · cases hstep
  | rollback i =>
      simp only [step] at hstep
      split at hstep
      · next conn hstage =>
          split_ifs at hstep
          cases hstep
          exact h.rolledBack (by rw [hstage]; rfl) (by rw [hstage]; nofun) nofun (.inl rfl)
      · next conn hstage =>
          split_ifs at hstep
          cases hstep
          exact h.rolledBack (by rw [hstage]; rfl) (by rw [hstage]; nofun) nofun (.inl rfl)
      · cases hstep
  | failRollback i executed =>
      simp only [step] at hstep
      split at hstep
      · next conn hstage =>
          cases hstep
          exact h.rolledBack (by rw [hstage]; rfl) (by rw [hstage]; nofun) nofun (.inl rfl)
      · next conn hstage =>
          cases hstep
          have hconn : (s.stage i).conn = some conn := by rw [hstage]; rfl
          refine h.rolledBack hconn (by rw [hstage]; nofun) (fun tx htx => ?_) ?_
          · cases executed with
            | true => cases htx
            | false => exact h.clean.own i conn tx hconn htx
          · -- a rollback that fails may have been executed, or the transaction was over before
            rcases hok conn hstage with rfl | hdone
            · exact .inl rfl
            · cases executed with
              | true => exact .inl rfl
              | false => exact hdone
      · cases hstep

/-- **No dirty connection comes back to the pool along the runs that meet the condition**, and no
block works in the transaction of another one. -/
theorem cleanPool_of_run {actions : List PoolAction}
    (hrun : GuardedRun step Finished start actions s) :
    s.CleanPool := by
  have hstart : start.Invariant := by
    refine ⟨fun i conn hconn => ?_, fun _ _ h => (nomatch h),
      ⟨fun _ _ => rfl, fun _ _ _ _ h => (nomatch h)⟩⟩
    cases hconn
  have hinv : s.Invariant :=
    hrun.invariant hstart fun _ _ _ h hok hstep => invariant_step h hok hstep
  exact hinv.clean

/-- A block writes and does not commit, and its rollback after a cancellation is cancelled, too;
another one reads, and its final rollback raises after it has been executed. -/
theorem cleanPool_of_run_cancelled : ∃ s : PoolState,
    GuardedRun step Finished start [.enter 0 7, .prepare 0, .execute 0 true true, .throw 0,
      .failRollback 0 false, .enter 1 8, .prepare 1, .execute 1 false true, .leave 1,
      .failRollback 1 true] s ∧ s.place 7 = .gone ∧ s.place 8 = .free ∧ s.CleanPool := by
  have hrun : ∃ s : PoolState,
      GuardedRun step Finished start [.enter 0 7, .prepare 0, .execute 0 true true, .throw 0,
        .failRollback 0 false, .enter 1 8, .prepare 1, .execute 1 false true, .leave 1,
        .failRollback 1 true] s ∧ s.place 7 = .gone ∧ s.place 8 = .free :=
    ⟨_, .cons trivial rfl (.cons trivial rfl (.cons trivial rfl (.cons trivial rfl
      (.cons (fun _ h => nomatch h) rfl (.cons trivial rfl (.cons trivial rfl
        (.cons trivial rfl (.cons trivial rfl (.cons (fun _ _ => .inl rfl) rfl
          .nil))))))))), rfl, rfl⟩
  obtain ⟨s, hrun, hgone, hfree⟩ := hrun
  exact ⟨s, hrun, hgone, hfree, cleanPool_of_run hrun⟩

/-- A block reads and ends normally, and its rollback fails. -/
def failedFinalRollback : List PoolAction :=
  [.enter 0 7, .prepare 0, .execute 0 false true, .leave 0, .failRollback 0 false]

/-- The connection is in the pool with the snapshot of the block. -/
theorem not_cleanPool_finalRollback :
    ¬ ∀ actions s, GuardedRun step (fun _ _ => True) start actions s → s.CleanPool := by
  intro hclaim
  have hrun : ∃ s : PoolState, GuardedRun step (fun _ _ => True) start failedFinalRollback s ∧
      s.place 7 = .free ∧ (s.raw 7).transaction = some ⟨0, false⟩ :=
    ⟨_, .cons trivial rfl (.cons trivial rfl (.cons trivial rfl (.cons trivial rfl
      (.cons trivial rfl .nil)))), rfl, rfl⟩
  obtain ⟨s, hrun, hfree, hopen⟩ := hrun
  have hnone := (hclaim failedFinalRollback s hrun).returned 7 hfree
  rw [hopen] at hnone
  cases hnone

end Steps

end PoolState

end Hygie
