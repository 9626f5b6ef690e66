/-
**The backups.**

A backup is written under a name that is made of the second in which its call has begun.  On SQLite
it is one file; on MariaDB a plain dump is written, compressed into a second file and removed, or
kept when the compression fails.  A dump that fails removes its file, and a call that succeeds lists
the directory and removes all but the newest files.  The names collide when two calls begin in one
second, in one worker or in two; and the listing does not tell the file of a call that is still
under way from one that is returned.

The files of the directory are those that the listing finds: `hygie_`, a stamp, and an extension.
What the listing reads, the names and the times, comes with the step, as other workers may change
the directory while it is read.  Each file bears the call that has opened it last.

Main definitions:

* `victims` — what a listing selects for removal;
* `BackupState.step` — the steps of the calls, with their failures;
* `BackupState.BackupsSafe` — the law, `BackupState.Apart` — the condition.

Main results:

* `BackupState.invariant_step` — what one step preserves;
* `BackupState.backupsSafe_of_run` — **the law holds along the runs that meet the condition**;
* `BackupState.not_backupsSafe_oneSecond` — a dump that fails removes a backup of the same second.
-/

import Hygie.GuardedRuns
import Hygie.ThresholdNotifications

set_option relaxedAutoImplicit false
set_option autoImplicit false

namespace Hygie

/-! ### The directory -/

inductive BackupKind
  | db | sql | gz
  deriving DecidableEq, Repr

/-- The file `hygie_{stamp}.db`, `hygie_{stamp}.sql` or `hygie_{stamp}.sql.gz`. -/
structure BackupName where
  stamp : String
  kind : BackupKind
  deriving DecidableEq, Repr

structure BackupFile where
  /-- The call that has opened the file last, or none if it is from before. -/
  writer : Option ℕ
  complete : Bool
  /-- Another call was still writing to it when it was opened. -/
  shared : Bool
  deriving DecidableEq, Repr

/-- What a listing selects for removal: all but the newest ones. -/
def victims (retention : ℕ) (entries : List (BackupName × ℚ)) : List BackupName :=
  let ofKind kind := entries.filter fun entry => entry.1.kind = kind
  let allBackups := (ofKind .db ++ ofKind .sql ++ ofKind .gz).insertionSort fun a b => a.2 ≤ b.2
  (allBackups.take (allBackups.length - retention)).map (·.1)

/-! ### The calls -/

/-- How far a call of `run_backup` has come. -/
inductive BackupStage
  | idle
  | dumping
  /-- The file of the dump is open. -/
  | writing
  /-- On MariaDB the dump is complete, and then compressed. -/
  | dumped | compressing | compressed
  | logging (name : BackupName)
  | pruning (name : BackupName) (rest : List BackupName)
  /-- `intact` says whether a complete backup was there at the return. -/
  | returned (name : BackupName) (intact : Bool)
  | failed
  deriving DecidableEq, Repr

/-- The call is under way. -/
def BackupStage.underWay : BackupStage → Bool
  | .idle | .returned _ _ | .failed => false
  | _ => true

structure BackupCall where
  stamp : String
  retention : ℕ
  stage : BackupStage
  deriving DecidableEq, Repr

/-- The directory, the calls of all workers, and which call has truncated or removed the file of
which other one. -/
structure BackupState where
  files : BackupName → Option BackupFile
  calls : ℕ → BackupCall
  hits : List (ℕ × ℕ × BackupName)

inductive BackupAction
  | begin (i : ℕ) (stamp : String) (retention : ℤ)
  | failEarly (i : ℕ)
  | openDump (i : ℕ)
  | failDump (i : ℕ) (removed : Bool)
  | finishDump (i : ℕ)
  | openGz (i : ℕ)
  | finishGz (i : ℕ)
  | removePlain (i : ℕ)
  | failGz (i : ℕ) (removed : Bool)
  | failLog (i : ℕ)
  | list (i : ℕ) (entries : List (BackupName × ℚ))
  | failList (i : ℕ)
  | unlink (i : ℕ) (removed : Bool)
  | finish (i : ℕ)
  deriving DecidableEq

namespace BackupState

variable (dialect : Dialect)

/-- The file of the dump. -/
def dumpName (stamp : String) : BackupName where
  stamp := stamp
  kind :=
    match dialect with
    | .sqlite => .db
    | .mariadb => .sql

def gzName (stamp : String) : BackupName where
  stamp := stamp
  kind := .gz

def setStage (s : BackupState) (i : ℕ) (stage : BackupStage) : BackupState :=
  { s with calls := Function.update s.calls i { s.calls i with stage := stage } }

/-- A call truncates or removes what there is under a name. -/
def hit (s : BackupState) (i : ℕ) (name : BackupName) : List (ℕ × ℕ × BackupName) :=
  match s.files name with
  | some ⟨some j, _, _⟩ => if j = i then s.hits else (i, j, name) :: s.hits
  | _ => s.hits

def openFile (s : BackupState) (i : ℕ) (name : BackupName) : BackupState :=
  let shared :=
    match s.files name with
    | some ⟨some j, false, _⟩ => j ≠ i
    | _ => false
  { s with
    files := Function.update s.files name (some ⟨some i, false, shared⟩)
    hits := s.hit i name }

/-- `_remove_quietly`, when it removes the file. -/
def removeFile (s : BackupState) (i : ℕ) (name : BackupName) : BackupState :=
  { s with files := Function.update s.files name none, hits := s.hit i name }

/-- A call has written a file to its end; what it has written is in the directory if the file is
still the one that it has opened, and complete if no other call has written to it. -/
def completeFile (s : BackupState) (i : ℕ) (name : BackupName) (source : Bool) : BackupState :=
  match s.files name with
  | some ⟨some j, _, false⟩ =>
      if j = i then { s with files := Function.update s.files name (some ⟨some i, source, false⟩) }
      else s
  | _ => s

/-- There is a complete file under the name. -/
def isComplete (s : BackupState) (name : BackupName) : Bool := (s.files name).any (·.complete)

/-- The step function. -/
def step (s : BackupState) : BackupAction → Option BackupState
  | .begin i stamp retention =>
      match (s.calls i).stage with
      | .idle =>
          some { s with
            calls := Function.update s.calls i ⟨stamp, (max 1 retention).toNat, .dumping⟩ }
      | _ => none
  | .failEarly i =>
      match (s.calls i).stage with
      | .dumping => some (s.setStage i .failed)
      | _ => none
  | .openDump i =>
      match (s.calls i).stage with
      | .dumping => some ((s.openFile i (dumpName dialect (s.calls i).stamp)).setStage i .writing)
      | _ => none
  | .failDump i removed =>
      match (s.calls i).stage with
      | .dumping | .writing =>
          let t := if removed then s.removeFile i (dumpName dialect (s.calls i).stamp) else s
          some (t.setStage i .failed)
      | _ => none
  | .finishDump i =>
      match (s.calls i).stage with
      | .writing =>
          let name := dumpName dialect (s.calls i).stamp
          let stage : BackupStage :=
            match dialect with
            | .sqlite => .logging name
            | .mariadb => .dumped
          some ((s.completeFile i name true).setStage i stage)
      | _ => none
  | .openGz i =>
      match (s.calls i).stage, s.files (dumpName dialect (s.calls i).stamp) with
      | .dumped, some _ => some ((s.openFile i (gzName (s.calls i).stamp)).setStage i .compressing)
      | _, _ => none
  | .finishGz i =>
      match (s.calls i).stage with
      | .compressing =>
          let source := s.isComplete (dumpName dialect (s.calls i).stamp)
          some ((s.completeFile i (gzName (s.calls i).stamp) source).setStage i .compressed)
      | _ => none
  | .removePlain i =>
      match (s.calls i).stage, s.files (dumpName dialect (s.calls i).stamp) with
      | .compressed, some _ =>
          some ((s.removeFile i (dumpName dialect (s.calls i).stamp)).setStage i
            (.logging (gzName (s.calls i).stamp)))
      | _, _ => none
  | .failGz i removed =>
      match (s.calls i).stage with
      | .dumped | .compressing | .compressed =>
          let t := if removed then s.removeFile i (gzName (s.calls i).stamp) else s
          some (t.setStage i (.logging (dumpName dialect (s.calls i).stamp)))
      | _ => none
  | .failLog i | .failList i =>
      match (s.calls i).stage with
      | .logging _ => some (s.setStage i .failed)
      | _ => none
  | .list i entries =>
      match (s.calls i).stage with
      | .logging name => some (s.setStage i (.pruning name (victims (s.calls i).retention entries)))
      | _ => none
  | .unlink i removed =>
      match (s.calls i).stage with
      | .pruning name (old :: rest) =>
          let t := if removed then s.removeFile i old else s
          some (t.setStage i (.pruning name rest))
      | _ => none
  | .finish i =>
      match (s.calls i).stage with
      | .pruning name [] => some (s.setStage i (.returned name (s.isComplete name)))
      | _ => none

/-- The directory as it is found, with files from before. -/
def start (complete : BackupName → Option Bool) : BackupState where
  files := fun name => (complete name).map fun complete => ⟨none, complete, false⟩
  calls := fun _ => ⟨"", 1, .idle⟩
  hits := []

/-! ### The law and the condition -/

/-- A call that returns a name leaves a complete backup under it, and a call that fails has neither
truncated nor removed a file that another one returns. -/
structure BackupsSafe (s : BackupState) : Prop where
  complete : ∀ i name intact, (s.calls i).stage = .returned name intact → intact = true
  harmless : ∀ i j name, (i, j, name) ∈ s.hits → (s.calls i).stage = .failed →
    ∀ intact, (s.calls j).stage ≠ .returned name intact

/-- The condition: no two calls begin in one second, and what a call prunes is not the file of a
call that is under way, nor its own. -/
def Apart (s : BackupState) : BackupAction → Prop
  | .begin _ stamp _ => ∀ j, (s.calls j).stage ≠ .idle → (s.calls j).stamp ≠ stamp
  | .unlink i true => ∀ name old rest, (s.calls i).stage = .pruning name (old :: rest) →
      ∀ j, (s.calls j).stage.underWay = true → (s.calls j).stamp ≠ old.stamp
  | _ => True

/-! ### The invariant -/

/-- What a call has in the directory, by how far it has come. -/
def Work (s : BackupState) (i : ℕ) : Prop :=
  let plain := dumpName dialect (s.calls i).stamp
  let gz := gzName (s.calls i).stamp
  match (s.calls i).stage with
  | .writing => s.files plain = some ⟨some i, false, false⟩
  | .dumped => s.isComplete plain = true
  | .compressing => s.isComplete plain = true ∧ s.files gz = some ⟨some i, false, false⟩
  | .compressed => s.isComplete plain = true ∧ s.isComplete gz = true
  | .logging name | .pruning name _ => name.stamp = (s.calls i).stamp ∧ s.isComplete name = true
  | .returned _ intact => intact = true
  | _ => True

/-- The call has come to the pruning, and cannot fail any more. -/
def BackupStage.succeeded : BackupStage → Bool
  | .pruning _ _ | .returned _ _ => true
  | _ => false

/-- What holds in the runs that meet the condition. -/
structure Invariant (s : BackupState) : Prop where
  apart : ∀ i j, (s.calls i).stage ≠ .idle → (s.calls j).stage ≠ .idle →
    (s.calls i).stamp = (s.calls j).stamp → i = j
  owned : ∀ name file j, s.files name = some file → file.writer = some j →
    (s.calls j).stage ≠ .idle ∧ (s.calls j).stamp = name.stamp
  work : ∀ i, s.Work dialect i
  blame : ∀ i j name, (i, j, name) ∈ s.hits → BackupStage.succeeded (s.calls i).stage = true

/-- From one state to another a call has worked on its own files alone. -/
structure Local (i : ℕ) (s t : BackupState) : Prop where
  calls : t.calls = s.calls
  hits : t.hits = s.hits
  others : ∀ name, name.stamp ≠ (s.calls i).stamp → t.files name = s.files name
  own : ∀ name file j, name.stamp = (s.calls i).stamp → t.files name = some file →
    file.writer = some j → j = i

section Steps

variable {dialect} {s t : BackupState} {action : BackupAction} {i j : ℕ} {name : BackupName}

/-- The files with the stamp of a call have been opened by no other one. -/
theorem Invariant.mine {file : BackupFile} (h : s.Invariant dialect)
    (hbusy : (s.calls i).stage ≠ .idle)
    (hstamp : name.stamp = (s.calls i).stamp) (hfile : s.files name = some file)
    (hwriter : file.writer = some j) : j = i := by
  obtain ⟨hj, hsame⟩ := h.owned name file j hfile hwriter
  exact h.apart j i hj hbusy (hsame.trans hstamp)

theorem Invariant.localRefl (h : s.Invariant dialect) (hbusy : (s.calls i).stage ≠ .idle) :
    Local i s s :=
  ⟨rfl, rfl, fun _ _ => rfl, fun _ _ _ hstamp hfile hwriter => h.mine hbusy hstamp hfile hwriter⟩

/-- A call that truncates or removes a file with its stamp hits no other one. -/
theorem Invariant.hit_eq (h : s.Invariant dialect) (hbusy : (s.calls i).stage ≠ .idle)
    (hstamp : name.stamp = (s.calls i).stamp) : s.hit i name = s.hits := by
  unfold hit
  split
  · next j complete shared hfile => rw [if_pos (h.mine hbusy hstamp hfile rfl)]
  · rfl

theorem Invariant.localUpdate {file : Option BackupFile} {hits : List (ℕ × ℕ × BackupName)}
    (h : s.Invariant dialect) (hbusy : (s.calls i).stage ≠ .idle)
    (hstamp : name.stamp = (s.calls i).stamp)
    (hhits : hits = s.hits) (hwriter : ∀ f j, file = some f → f.writer = some j → j = i) :
    Local i s { s with files := Function.update s.files name file, hits := hits } := by
  refine ⟨rfl, hhits, fun other hother => ?_, fun other f j hother hf hj => ?_⟩
  · have hne : other ≠ name := by
      rintro rfl
      exact hother hstamp
    exact Function.update_of_ne hne _ _
  · by_cases hsame : other = name
    · subst hsame
      have hfile : file = some f := by simpa using hf
      exact hwriter f j hfile hj
    · have hold : s.files other = some f := by simpa [Function.update_of_ne hsame] using hf
      exact h.mine hbusy hother hold hj

theorem Invariant.localOpen (h : s.Invariant dialect) (hbusy : (s.calls i).stage ≠ .idle)
    (hstamp : name.stamp = (s.calls i).stamp) : Local i s (s.openFile i name) := by
  refine h.localUpdate hbusy hstamp (h.hit_eq hbusy hstamp) fun f j hf hj => ?_
  obtain rfl := Option.some.inj hf
  exact (Option.some.inj hj).symm

theorem Invariant.localRemove (h : s.Invariant dialect) (hbusy : (s.calls i).stage ≠ .idle)
    (hstamp : name.stamp = (s.calls i).stamp) (removed : Bool) :
    Local i s (if removed then s.removeFile i name else s) := by
  cases removed with
  | true => exact h.localUpdate hbusy hstamp (h.hit_eq hbusy hstamp) nofun
  | false => exact h.localRefl hbusy

/-- Who has opened a file alone completes it. -/
theorem completeFile_eq {source : Bool} (hfile : s.files name = some ⟨some i, false, false⟩) :
    s.completeFile i name source =
      { s with files := Function.update s.files name (some ⟨some i, source, false⟩) } := by
  simp [completeFile, hfile]

theorem Invariant.localComplete {source : Bool} (h : s.Invariant dialect)
    (hbusy : (s.calls i).stage ≠ .idle) (hstamp : name.stamp = (s.calls i).stamp)
    (hfile : s.files name = some ⟨some i, false, false⟩) :
    Local i s (s.completeFile i name source) := by
  rw [completeFile_eq hfile]
  refine h.localUpdate hbusy hstamp rfl fun f j hf hj => ?_
  obtain rfl := Option.some.inj hf
  exact (Option.some.inj hj).symm

/-- What a call has in the directory stays as long as nobody works on the files with its stamp. -/
theorem Work.congr (h : s.Work dialect j) (hcall : t.calls j = s.calls j)
    (hfiles : ∀ name, name.stamp = (s.calls j).stamp → t.files name = s.files name) :
    t.Work dialect j := by
  have hcomplete : ∀ name, name.stamp = (s.calls j).stamp →
      t.isComplete name = s.isComplete name := by
    intro name hstamp
    rw [isComplete, hfiles name hstamp, isComplete]
  have hplain := hfiles (dumpName dialect (s.calls j).stamp) rfl
  have hgz := hfiles (gzName (s.calls j).stamp) rfl
  have hplainC := hcomplete (dumpName dialect (s.calls j).stamp) rfl
  have hgzC := hcomplete (gzName (s.calls j).stamp) rfl
  unfold Work at h ⊢
  simp only [hcall] at h ⊢
  cases hstage : (s.calls j).stage <;> simp only [hstage] at h ⊢
  case writing => rwa [hplain]
  case dumped => rwa [hplainC]
  case compressing => rwa [hplainC, hgz]
  case compressed => rwa [hplainC, hgzC]
  case logging name => exact ⟨h.1, (hcomplete name h.1).trans h.2⟩
  case pruning name rest => exact ⟨h.1, (hcomplete name h.1).trans h.2⟩
  case returned => exact h

/-- A call that works on its own files keeps the invariant, if its files are as its stage says. -/
theorem Invariant.move {stage : BackupStage} (h : s.Invariant dialect) (hlocal : Local i s t)
    (hbusy : (s.calls i).stage ≠ .idle) (hstage : stage ≠ .idle)
    (hwork : (t.setStage i stage).Work dialect i)
    (hsucceeded : BackupStage.succeeded (s.calls i).stage = true →
      BackupStage.succeeded stage = true) :
    (t.setStage i stage).Invariant dialect := by
  have hself : (t.setStage i stage).calls i = { s.calls i with stage := stage } := by
    simp [setStage, hlocal.calls]
  have hother : ∀ j, j ≠ i → (t.setStage i stage).calls j = s.calls j := by
    intro j hne
    simp [setStage, hlocal.calls, hne]
  have hstamp : ∀ j, ((t.setStage i stage).calls j).stamp = (s.calls j).stamp := by
    intro j
    by_cases hne : j = i
    · rw [hne, hself]
    · rw [hother j hne]
  have hidle : ∀ j, ((t.setStage i stage).calls j).stage ≠ .idle → (s.calls j).stage ≠ .idle := by
    intro j hj
    by_cases hne : j = i
    · rwa [hne]
    · rwa [hother j hne] at hj
  refine ⟨fun j k hj hk hsame => ?_, fun name file j hfile hj => ?_, fun j => ?_,
    fun j k name hhit => ?_⟩
  · rw [hstamp, hstamp] at hsame
    exact h.apart j k (hidle j hj) (hidle k hk) hsame
  · have hfile' : t.files name = some file := hfile
    by_cases hmine : name.stamp = (s.calls i).stamp
    · obtain rfl := hlocal.own name file j hmine hfile' hj
      rw [hself]
      exact ⟨hstage, hmine.symm⟩
    · rw [hlocal.others name hmine] at hfile'
      obtain ⟨hbusyj, hsame⟩ := h.owned name file j hfile' hj
      have hne : j ≠ i := by
        rintro rfl
        exact hmine hsame.symm
      rw [hother j hne]
      exact ⟨hbusyj, hsame⟩
  · by_cases hne : j = i
    · rwa [hne]
    · by_cases hj : (s.calls j).stage = .idle
      · simp [Work, hother j hne, hj]
      · refine (h.work j).congr (hother j hne) fun name hname => ?_
        -- two calls that are begun have different stamps
        refine hlocal.others name fun hmine => hne ?_
        exact h.apart j i hj hbusy (hname.symm.trans hmine)
  · have hold : (j, k, name) ∈ s.hits := by
      rw [← hlocal.hits]
      exact hhit
    have hdone := h.blame j k name hold
    by_cases hne : j = i
    · rw [hne] at hdone
      rw [hne, hself]
      exact hsucceeded hdone
    · rwa [hother j hne]

/-! ### One lemma for each kind of step -/

@[simp] theorem setStage_calls_self (stage : BackupStage) :
    (s.setStage i stage).calls i = { s.calls i with stage := stage } := by
  simp [setStage]

@[simp] theorem setStage_files (stage : BackupStage) : (s.setStage i stage).files = s.files := rfl

@[simp] theorem setStage_isComplete (stage : BackupStage) :
    (s.setStage i stage).isComplete name = s.isComplete name := rfl

@[simp] theorem openFile_calls : (s.openFile i name).calls = s.calls := rfl

@[simp] theorem removeFile_calls : (s.removeFile i name).calls = s.calls := rfl

theorem gzName_ne_dumpName {stamp : String} : gzName stamp ≠ dumpName dialect stamp := by
  cases dialect <;> simp [gzName, dumpName]

/-- The files under other names stay as they are. -/
theorem isComplete_of_ne {other : BackupName} {file : Option BackupFile}
    {hits : List (ℕ × ℕ × BackupName)}
    (hne : other ≠ name) :
    isComplete { s with files := Function.update s.files name file, hits := hits } other =
      s.isComplete other := by
  simp [isComplete, hne]

/-- Of its own files a call opens one that no other call is writing to. -/
theorem Invariant.openFile_files (h : s.Invariant dialect) (hbusy : (s.calls i).stage ≠ .idle)
    (hstamp : name.stamp = (s.calls i).stamp) :
    (s.openFile i name).files = Function.update s.files name (some ⟨some i, false, false⟩) := by
  unfold openFile
  split
  · next j shared hfile => simp [h.mine hbusy hstamp hfile rfl]
  · rfl

/-- The step of a call that begins in a second of its own. -/
theorem Invariant.begin {stamp : String} {retention : ℕ} (h : s.Invariant dialect)
    (hidle : (s.calls i).stage = .idle)
    (hfresh : ∀ j, (s.calls j).stage ≠ .idle → (s.calls j).stamp ≠ stamp) :
    Invariant dialect
      { s with calls := Function.update s.calls i ⟨stamp, retention, .dumping⟩ } := by
  have hother : ∀ j, j ≠ i → Function.update s.calls i ⟨stamp, retention, .dumping⟩ j = s.calls j :=
    fun j hne => Function.update_of_ne hne _ _
  refine ⟨fun j k hj hk hsame => ?_, fun name file j hfile hj => ?_, fun j => ?_,
    fun j k name hhit => ?_⟩
  · by_cases hji : j = i <;> by_cases hki : k = i
    · rw [hji, hki]
    · subst hji
      simp only [Function.update_self, hother k hki] at hk hsame
      exact absurd hsame.symm (hfresh k hk)
    · subst hki
      simp only [Function.update_self, hother j hji] at hj hsame
      exact absurd hsame (hfresh j hj)
    · simp only [hother j hji, hother k hki] at hj hk hsame
      exact h.apart j k hj hk hsame
  · obtain ⟨hbusy, hsame⟩ := h.owned name file j hfile hj
    have hne : j ≠ i := by
      rintro rfl
      exact hbusy hidle
    simp only [hother j hne]
    exact ⟨hbusy, hsame⟩
  · by_cases hne : j = i
    · subst hne
      simp [Work]
    · exact (h.work j).congr (hother j hne) fun _ _ => rfl
  · have hdone := h.blame j k name hhit
    have hne : j ≠ i := by
      rintro rfl
      rw [hidle] at hdone
      cases hdone
    simp only [hother j hne]
    exact hdone

/-- A call removes a file that has the stamp of no call under way. -/
theorem Invariant.prune {old : BackupName} {rest : List BackupName} (h : s.Invariant dialect)
    (hstage : (s.calls i).stage = .pruning name (old :: rest))
    (hover : ∀ j, (s.calls j).stage.underWay = true → (s.calls j).stamp ≠ old.stamp) :
    ((s.removeFile i old).setStage i (.pruning name rest)).Invariant dialect := by
  have hother : ∀ j, j ≠ i →
      ((s.removeFile i old).setStage i (.pruning name rest)).calls j = s.calls j := by
    intro j hne
    simp [setStage, hne]
  have hcall : ∀ j, (((s.removeFile i old).setStage i (.pruning name rest)).calls j).stamp =
      (s.calls j).stamp ∧
        ((((s.removeFile i old).setStage i (.pruning name rest)).calls j).stage ≠ .idle →
          (s.calls j).stage ≠ .idle) ∧
        ((s.calls j).stage ≠ .idle →
          (((s.removeFile i old).setStage i (.pruning name rest)).calls j).stage ≠ .idle) := by
    intro j
    by_cases hne : j = i
    · subst hne
      simp [hstage]
    · simp [hother j hne]
  refine ⟨fun j k hj hk hsame => ?_, fun other file j hfile hj => ?_, fun j => ?_,
    fun j k other hhit => ?_⟩
  · rw [(hcall j).1, (hcall k).1] at hsame
    exact h.apart j k ((hcall j).2.1 hj) ((hcall k).2.1 hk) hsame
  · by_cases hsame : other = old
    · subst hsame
      simp [removeFile] at hfile
    · have hold : s.files other = some file := by simpa [removeFile, hsame] using hfile
      obtain ⟨hbusy, hstamp⟩ := h.owned other file j hold hj
      exact ⟨(hcall j).2.2 hbusy, (hcall j).1.trans hstamp⟩
  · -- a call under way has no file with the stamp of the one that goes
    have hfiles : (s.calls j).stage.underWay = true → ∀ other, other.stamp = (s.calls j).stamp →
        (s.removeFile i old).files other = s.files other := by
      intro hunder other hstamp
      have hne : other ≠ old := by
        rintro rfl
        exact hover j hunder hstamp.symm
      simp [removeFile, hne]
    -- the call that prunes has a complete file of its own, which is not the one that goes
    by_cases hne : j = i
    · subst hne
      have hwork := h.work j
      simp only [Work, hstage] at hwork
      simp only [Work, setStage_calls_self, removeFile_calls, setStage_isComplete]
      refine ⟨hwork.1, ?_⟩
      rw [isComplete, hfiles (by rw [hstage]; rfl) name hwork.1]
      exact hwork.2
    · by_cases hunder : (s.calls j).stage.underWay = true
      · exact (h.work j).congr (hother j hne) (hfiles hunder)
      · have hwork := h.work j
        simp only [Work, hother j hne] at hwork ⊢
        cases hj : (s.calls j).stage <;> simp_all [BackupStage.underWay]
  · -- whoever is blamed for a removal has succeeded, and so has the call that prunes
    have hdone : BackupStage.succeeded (s.calls j).stage = true ∨ j = i := by
      have hmem : (j, k, other) ∈ s.hit i old := hhit
      unfold hit at hmem
      split at hmem
      · split_ifs at hmem
        · exact .inl (h.blame j k other hmem)
        · rcases List.mem_cons.1 hmem with heq | hmem
          · exact .inr (congrArg Prod.fst heq)
          · exact .inl (h.blame j k other hmem)
      · exact .inl (h.blame j k other hmem)
    by_cases hne : j = i
    · subst hne
      simp [BackupStage.succeeded]
    · rw [hother j hne]
      exact hdone.resolve_right hne

/-- **What one step preserves.** -/
theorem invariant_step (h : s.Invariant dialect) (hok : s.Apart action)
    (hstep : s.step dialect action = some t) : t.Invariant dialect := by
  cases action with
  | begin i stamp retention =>
      simp only [step] at hstep
      split at hstep
      · next hidle =>
          cases hstep
          exact h.begin hidle hok
      · cases hstep
  | failEarly i =>
      simp only [step] at hstep
      split at hstep
      · next hstage =>
          cases hstep
          have hbusy : (s.calls i).stage ≠ .idle := by rw [hstage]; nofun
          exact h.move (h.localRefl hbusy) hbusy nofun (by simp [Work])
            (by simp [hstage, BackupStage.succeeded])
      · cases hstep
  | openDump i =>
      simp only [step] at hstep
      split at hstep
      · next hstage =>
          cases hstep
          have hbusy : (s.calls i).stage ≠ .idle := by rw [hstage]; nofun
          refine h.move (h.localOpen hbusy rfl) hbusy nofun ?_
            (by simp [hstage, BackupStage.succeeded])
          have hfiles : (s.openFile i (dumpName dialect (s.calls i).stamp)).files = _ :=
            h.openFile_files hbusy rfl
          simp [Work, hfiles]
      · cases hstep
  | failDump i removed =>
      simp only [step] at hstep
      have hgone : (s.calls i).stage ≠ .idle → BackupStage.succeeded (s.calls i).stage = false →
          ((if removed = true then s.removeFile i (dumpName dialect (s.calls i).stamp)
            else s).setStage i .failed).Invariant dialect := by
        intro hbusy hsucceeded
        refine h.move (h.localRemove hbusy rfl removed) hbusy nofun (by simp [Work]) ?_
        simp [hsucceeded]
      split at hstep
      · next hstage =>
          cases hstep
          exact hgone (by rw [hstage]; nofun) (by rw [hstage]; rfl)
      · next hstage =>
          cases hstep
          exact hgone (by rw [hstage]; nofun) (by rw [hstage]; rfl)
      · cases hstep
  | finishDump i =>
      simp only [step] at hstep
      split at hstep
      · next hstage =>
          cases hstep
          have hbusy : (s.calls i).stage ≠ .idle := by rw [hstage]; nofun
          have hfile : s.files (dumpName dialect (s.calls i).stamp) =
              some ⟨some i, false, false⟩ := by
            have hwork := h.work i
            simpa only [Work, hstage] using hwork
          have hlocal : Local i s (s.completeFile i (dumpName dialect (s.calls i).stamp) true) :=
            h.localComplete hbusy rfl hfile
          have hcomplete : (s.completeFile i (dumpName dialect (s.calls i).stamp) true).isComplete
              (dumpName dialect (s.calls i).stamp) = true := by
            simp [completeFile_eq hfile, isComplete]
          refine h.move hlocal hbusy ?_ ?_ (by simp [hstage, BackupStage.succeeded])
          · cases dialect <;> nofun
          · cases dialect with
            | sqlite =>
                simp only [Work, setStage_calls_self, setStage_isComplete, hlocal.calls]
                exact ⟨rfl, hcomplete⟩
            | mariadb =>
                simp only [Work, setStage_calls_self, setStage_isComplete, hlocal.calls]
                exact hcomplete
      · cases hstep
  | openGz i =>
      simp only [step] at hstep
      split at hstep
      · next hstage hplain =>
          cases hstep
          have hbusy : (s.calls i).stage ≠ .idle := by rw [hstage]; nofun
          have hplainC := h.work i
          simp only [Work, hstage] at hplainC
          have hfiles : (s.openFile i (gzName (s.calls i).stamp)).files = _ :=
            h.openFile_files hbusy rfl
          refine h.move (h.localOpen hbusy rfl) hbusy nofun ?_
            (by simp [hstage, BackupStage.succeeded])
          simp only [Work, setStage_calls_self, setStage_files, setStage_isComplete, openFile_calls]
          refine ⟨?_, ?_⟩
          · exact (isComplete_of_ne gzName_ne_dumpName.symm).trans hplainC
          · rw [hfiles, Function.update_self]
      · cases hstep
  | finishGz i =>
      simp only [step] at hstep
      split at hstep
      · next hstage =>
          cases hstep
          have hbusy : (s.calls i).stage ≠ .idle := by rw [hstage]; nofun
          have hwork := h.work i
          simp only [Work, hstage] at hwork
          obtain ⟨hplainC, hfile⟩ := hwork
          have hlocal : Local i s (s.completeFile i (gzName (s.calls i).stamp) true) :=
            h.localComplete hbusy rfl hfile
          rw [hplainC]
          refine h.move hlocal hbusy nofun ?_ (by simp [hstage, BackupStage.succeeded])
          simp only [Work, setStage_calls_self, setStage_isComplete, hlocal.calls]
          refine ⟨?_, ?_⟩
          · rw [completeFile_eq hfile]
            exact (isComplete_of_ne gzName_ne_dumpName.symm).trans hplainC
          · simp [completeFile_eq hfile, isComplete]
      · cases hstep
  | removePlain i =>
      simp only [step] at hstep
      split at hstep
      · next hstage hplain =>
          cases hstep
          have hbusy : (s.calls i).stage ≠ .idle := by rw [hstage]; nofun
          have hwork := h.work i
          simp only [Work, hstage] at hwork
          have hlocal : Local i s (s.removeFile i (dumpName dialect (s.calls i).stamp)) :=
            h.localRemove hbusy rfl true
          refine h.move hlocal hbusy nofun ?_ (by simp [hstage, BackupStage.succeeded])
          simp only [Work, setStage_calls_self, setStage_isComplete, removeFile_calls]
          refine ⟨rfl, ?_⟩
          exact (isComplete_of_ne gzName_ne_dumpName).trans hwork.2
      · cases hstep
  | failGz i removed =>
      simp only [step] at hstep
      -- the plain dump is kept
      have hkept : (s.calls i).stage ≠ .idle → BackupStage.succeeded (s.calls i).stage = false →
          s.isComplete (dumpName dialect (s.calls i).stamp) = true →
            ((if removed = true then s.removeFile i (gzName (s.calls i).stamp) else s).setStage i
              (.logging (dumpName dialect (s.calls i).stamp))).Invariant dialect := by
        intro hbusy hsucceeded hplainC
        have hlocal : Local i s
            (if removed then s.removeFile i (gzName (s.calls i).stamp) else s) :=
          h.localRemove hbusy rfl removed
        refine h.move hlocal hbusy nofun ?_ (by simp [hsucceeded])
        simp only [Work, setStage_calls_self, setStage_isComplete, hlocal.calls]
        refine ⟨rfl, ?_⟩
        cases removed with
        | true => exact (isComplete_of_ne gzName_ne_dumpName.symm).trans hplainC
        | false => exact hplainC
      have hwork := h.work i
      split at hstep
      · next hstage =>
          cases hstep
          simp only [Work, hstage] at hwork
          exact hkept (by rw [hstage]; nofun) (by rw [hstage]; rfl) hwork
      · next hstage =>
          cases hstep
          simp only [Work, hstage] at hwork
          exact hkept (by rw [hstage]; nofun) (by rw [hstage]; rfl) hwork.1
      · next hstage =>
          cases hstep
          simp only [Work, hstage] at hwork
          exact hkept (by rw [hstage]; nofun) (by rw [hstage]; rfl) hwork.1
      · cases hstep
  | failLog i | failList i =>
      simp only [step] at hstep
      split at hstep
      · next hstage =>
          cases hstep
          have hbusy : (s.calls i).stage ≠ .idle := by rw [hstage]; nofun
          exact h.move (h.localRefl hbusy) hbusy nofun (by simp [Work])
            (by simp [hstage, BackupStage.succeeded])
      · cases hstep
  | list i entries =>
      simp only [step] at hstep
      split at hstep
      · next name hstage =>
          cases hstep
          have hbusy : (s.calls i).stage ≠ .idle := by rw [hstage]; nofun
          have hwork := h.work i
          simp only [Work, hstage] at hwork
          exact h.move (h.localRefl hbusy) hbusy nofun (by simp [Work, hwork]) fun _ => rfl
      · cases hstep
  | unlink i removed =>
      simp only [step] at hstep
      split at hstep
      · next name old rest hstage =>
          cases hstep
          have hbusy : (s.calls i).stage ≠ .idle := by rw [hstage]; nofun
          cases removed with
          | true => exact h.prune hstage (hok name old rest hstage)
          | false =>
              have hwork := h.work i
              simp only [Work, hstage] at hwork
              exact h.move (h.localRefl hbusy) hbusy nofun (by simp [Work, hwork]) fun _ => rfl
      · cases hstep
  | finish i =>
      simp only [step] at hstep
      split at hstep
      · next name hstage =>
          cases hstep
          have hbusy : (s.calls i).stage ≠ .idle := by rw [hstage]; nofun
          have hwork := h.work i
          simp only [Work, hstage] at hwork
          exact h.move (h.localRefl hbusy) hbusy nofun (by simp [Work, hwork]) fun _ => rfl
      · cases hstep

/-- **Backups do not destroy each other along the runs that meet the condition.** -/
theorem backupsSafe_of_run {old : BackupName → Option Bool} {actions : List BackupAction}
    (hrun : GuardedRun (step dialect) Apart (start old) actions s) : s.BackupsSafe := by
  have hstart : (start old).Invariant dialect := by
    refine ⟨fun _ _ hi _ _ => absurd rfl hi, fun name file j hfile hj => ?_,
      fun _ => trivial, nofun⟩
    obtain ⟨complete, _, rfl⟩ := Option.map_eq_some_iff.1 hfile
    cases hj
  have hinv : s.Invariant dialect :=
    hrun.invariant hstart fun _ _ _ h hok hstep => invariant_step h hok hstep
  refine ⟨fun i name intact hstage => ?_, fun i j name hhit hfailed => ?_⟩
  · have hwork := hinv.work i
    simpa only [Work, hstage] using hwork
  · -- who has hit another one has come to the pruning
    have hdone := hinv.blame i j name hhit
    rw [hfailed] at hdone
    cases hdone

/-- Two calls overlap on MariaDB, and the compression of the second one fails: it returns the plain
dump. -/
theorem backupsSafe_of_run_overlap : ∃ s : BackupState,
    GuardedRun (step .mariadb) Apart (start fun _ => none)
      [.begin 0 "20260101_030000" 7, .begin 1 "20260101_030001" 7, .openDump 0, .openDump 1,
        .finishDump 0, .openGz 0, .finishDump 1, .finishGz 0, .removePlain 0, .openGz 1,
        .failGz 1 true, .list 1 [(⟨"20260101_030001", .sql⟩, 3), (⟨"20260101_030000", .gz⟩, 2)],
        .finish 1] s ∧
      (s.calls 1).stage = .returned ⟨"20260101_030001", .sql⟩ true ∧ s.BackupsSafe := by
  have hrun : ∃ s : BackupState,
      GuardedRun (step .mariadb) Apart (start fun _ => none)
        [.begin 0 "20260101_030000" 7, .begin 1 "20260101_030001" 7, .openDump 0, .openDump 1,
          .finishDump 0, .openGz 0, .finishDump 1, .finishGz 0, .removePlain 0, .openGz 1,
          .failGz 1 true, .list 1 [(⟨"20260101_030001", .sql⟩, 3), (⟨"20260101_030000", .gz⟩, 2)],
          .finish 1] s ∧
        (s.calls 1).stage = .returned ⟨"20260101_030001", .sql⟩ true := by
    refine ⟨_, .cons (fun _ hj => absurd rfl hj) rfl (.cons (fun j hj => ?_) rfl (.cons trivial rfl
      (.cons trivial rfl (.cons trivial rfl (.cons trivial rfl (.cons trivial rfl (.cons trivial rfl
        (.cons trivial rfl (.cons trivial rfl (.cons trivial rfl (.cons trivial rfl
          (.cons trivial rfl .nil)))))))))))), rfl⟩
    by_cases hzero : j = 0
    · subst hzero
      decide
    · simp [start, hzero] at hj
  obtain ⟨s, hrun, hstage⟩ := hrun
  exact ⟨s, hrun, hstage, backupsSafe_of_run hrun⟩

/-- On SQLite a call makes a backup and returns; another one that has begun in the same second
fails. -/
def oneSecond : List BackupAction :=
  [.begin 0 "20260101_030000" 7, .openDump 0, .finishDump 0,
    .list 0 [(⟨"20260101_030000", .db⟩, 1)], .finish 0,
    .begin 1 "20260101_030000" 7, .openDump 1, .failDump 1 true]

/-- The call that fails has removed the backup of the other one. -/
theorem not_backupsSafe_oneSecond :
    ¬ ∀ (dialect : Dialect) old actions s,
      GuardedRun (step dialect) (fun _ _ => True) (start old) actions s → s.BackupsSafe := by
  intro hclaim
  have hrun : ∃ s : BackupState,
      GuardedRun (step .sqlite) (fun _ _ => True) (start fun _ => none) oneSecond s ∧
      (1, 0, ⟨"20260101_030000", .db⟩) ∈ s.hits ∧ (s.calls 1).stage = .failed ∧
        (s.calls 0).stage = .returned ⟨"20260101_030000", .db⟩ true ∧
          s.isComplete ⟨"20260101_030000", .db⟩ = false :=
    ⟨_, .cons trivial rfl (.cons trivial rfl (.cons trivial rfl (.cons trivial rfl
      (.cons trivial rfl (.cons trivial rfl (.cons trivial rfl (.cons trivial rfl .nil))))))),
      by decide, rfl, rfl, rfl⟩
  obtain ⟨s, hrun, hhit, hfailed, hreturned, _⟩ := hrun
  exact (hclaim .sqlite _ oneSecond s hrun).harmless 1 0 _ hhit hfailed true hreturned

end Steps

end BackupState

end Hygie
