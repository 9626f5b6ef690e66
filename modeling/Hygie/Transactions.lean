/-
**Programs that are started again.**

A program reads a database and changes it by statements.  What it has not committed is lost when it
is interrupted; on some engines a change of the schema commits by itself, together with what is
open.  Stages are programs that are run in a fixed order, and that are marked as they end, so that a
later start passes them over.  An interruption may come between any two statements, and between a
program and its mark.  Stages that may be started again from whatever they leave behind lead to one
result, however often they are interrupted.

Main definitions:

* `Program`, `Program.exec`, `Program.run` — what a program does;
* `Program.Interrupted` — what may be left of it;
* `Program.Resumable`, `Program.ResumableFrom` — it may be started again;
* `Program.Keeps` — every statement of it keeps a property;
* `Program.Atomic` — all is left of it or nothing;
* `Stage`, `runStages`, `InterruptedStages` — programs that are marked.

Main results:

* `Program.interrupted_of_run` — a program that ends leaves what it ends with;
* `Program.Atomic.resumable` — **an atomic program whose result it does not change may be started
  again**;
* `idem_bind` — two steps that change nothing the second time;
* `Settles.foldlM_resume` — steps that are passed over when they are done lead on from any of them;
* `runStages_of_interrupted` — **interrupted stages lead to the same result**.
-/

import Mathlib.Tactic

set_option relaxedAutoImplicit false
set_option autoImplicit false

namespace Transactions

/-- What a statement changes. -/
inductive Kind
  | schema
  | data
  deriving DecidableEq, Repr

/-- A program on a database; a statement that fails ends it, and a connection that is closed loses
what is not committed. -/
inductive Program (σ : Type)
  | done
  | fail
  | read (next : σ → Program σ)
  | write (kind : Kind) (change : σ → Option σ) (next : Program σ)
  | commit (next : Program σ)
  | reconnect (next : Program σ)

namespace Program

variable {σ : Type} (commits : Bool)

/-- What is committed after a statement, if a change of the schema commits. -/
def committed (kind : Kind) (durable changed : σ) : σ :=
  if commits = true ∧ kind = .schema then changed else durable

/-- What a program leaves when it ends, from what is committed and what the connection sees. -/
def exec : Program σ → σ → σ → Option σ
  | done, durable, _ => some durable
  | fail, _, _ => none
  | read next, durable, working => exec (next working) durable working
  | write kind change next, durable, working =>
      (change working).bind fun changed =>
      exec next (committed commits kind durable changed) changed
  | commit next, _, working => exec next working working
  | reconnect next, durable, _ => exec next durable durable

/-- What a program leaves when it ends. -/
def run (p : Program σ) (s : σ) : Option σ := p.exec commits s s

/-- What may be left of a program that is interrupted.  A change of the schema that commits does so
with what is open before it, also when it fails. -/
def Interrupted : Program σ → σ → σ → σ → Prop
  | done, durable, _, t => t = durable
  | fail, durable, _, t => t = durable
  | read next, durable, working, t => Interrupted (next working) durable working t
  | write kind change next, durable, working, t =>
      t = durable ∨ t = committed commits kind durable working ∨
        ∃ changed, change working = some changed ∧
          Interrupted next (committed commits kind durable changed) changed t
  | commit next, durable, working, t => t = durable ∨ Interrupted next working working t
  | reconnect next, durable, _, t => t = durable ∨ Interrupted next durable durable t

/-- A program may be started again from whatever is left of it. -/
def Resumable (p : Program σ) : Prop :=
  ∀ s t, p.Interrupted commits s s t → p.run commits t = p.run commits s

/-- A program that starts where a property holds may be started again. -/
def ResumableFrom (P : σ → Prop) (p : Program σ) : Prop :=
  ∀ s t, P s → p.Interrupted commits s s t → p.run commits t = p.run commits s

/-- Every statement keeps a property. -/
inductive Keeps (P : σ → Prop) : Program σ → Prop
  | done : Keeps P done
  | fail : Keeps P fail
  | read {next : σ → Program σ} (h : ∀ s, Keeps P (next s)) : Keeps P (read next)
  | write {kind : Kind} {change : σ → Option σ} {next : Program σ}
      (hchange : ∀ s t,
      P s → change s = some t → P t) (h : Keeps P next) : Keeps P (write kind change next)
  | commit {next : Program σ} (h : Keeps P next) : Keeps P (commit next)
  | reconnect {next : Program σ} (h : Keeps P next) : Keeps P (reconnect next)

variable {commits : Bool} {p : Program σ} {d w s t : σ} {P : σ → Prop}

@[simp] theorem committed_data : committed commits .data d w = d := if_neg fun h => nomatch h.2

/-- What is committed may be left at any moment. -/
theorem interrupted_self : p.Interrupted commits d w d := by
  induction p generalizing w with
  | done => rfl
  | fail => rfl
  | read next ih => exact ih w
  | write kind change next ih => exact .inl rfl
  | commit next ih => exact .inl rfl
  | reconnect next ih => exact .inl rfl

/-- A program that ends leaves what it ends with. -/
theorem interrupted_of_exec (h : p.exec commits d w = some t) : p.Interrupted commits d w t := by
  induction p generalizing d w with
  | done => exact (Option.some.inj h).symm
  | fail => cases h
  | read next ih => exact ih w h
  | write kind change next ih =>
      obtain ⟨changed, hchanged, hnext⟩ := Option.bind_eq_some_iff.1 h
      exact .inr (.inr ⟨changed, hchanged, ih hnext⟩)
  | commit next ih => exact .inr (ih h)
  | reconnect next ih => exact .inr (ih h)

theorem interrupted_of_run (h : p.run commits s = some t) : p.Interrupted commits s s t :=
  interrupted_of_exec h

theorem Resumable.resumableFrom (h : p.Resumable commits) : p.ResumableFrom commits P :=
  fun s t _ => h s t

/-- What every statement keeps holds of whatever is left. -/
theorem Keeps.of_interrupted (hp : p.Keeps P) (hd : P d) (hw : P w)
    (h : p.Interrupted commits d w t) :
    P t := by
  have hcommitted : ∀ kind d w, P d → P w → P (committed commits kind d w) := by
    intro kind d w hd hw
    rw [committed]
    split_ifs
    · exact hw
    · exact hd
  induction hp generalizing d w with
  | done => exact h ▸ hd
  | fail => exact h ▸ hd
  | read _ ih => exact ih w hd hw h
  | write hchange _ ih =>
      rcases h with rfl | rfl | ⟨changed, hchanged, h⟩
      · exact hd
      · exact hcommitted _ d w hd hw
      · have hw' := hchange w changed hw hchanged
        exact ih (hcommitted _ d changed hd hw') hw' h
  | commit _ ih =>
      rcases h with rfl | h
      · exact hd
      · exact ih hw hw h
  | reconnect _ ih =>
      rcases h with rfl | h
      · exact hd
      · exact ih hd hd h

theorem Keeps.of_run (hp : p.Keeps P) (hs : P s) (h : p.run commits s = some t) : P t :=
  hp.of_interrupted hs hs (interrupted_of_run h)

theorem keeps_writes {ι : Type} {f : ι → σ → Option σ} {l : List ι} {last : Program σ}
    (hf : ∀ i ∈ l, ∀ s t, P s → f i s = some t → P t) (hlast : last.Keeps P) :
    (l.foldr (fun i next => write .data (f i) next) last).Keeps P := by
  induction l with
  | nil => exact hlast
  | cons i l ih =>
      obtain ⟨hi, hl⟩ := List.forall_mem_cons.1 hf
      exact .write hi (ih hl)

/-! ### Atomic programs -/

/-- Changes of data that are committed at the end. -/
inductive OneCommit : Program σ → Prop
  | done : OneCommit done
  | fail : OneCommit fail
  | read {next : σ → Program σ} (h : ∀ s, OneCommit (next s)) : OneCommit (read next)
  | write {change : σ → Option σ} {next : Program σ} (h : OneCommit next) :
      OneCommit (write .data change next)
  | commit : OneCommit (commit done)

/-- A program with one commit, or with one change of the schema, behind some reading. -/
inductive Atomic : Program σ → Prop
  | oneCommit {p : Program σ} (h : OneCommit p) : Atomic p
  | schema {change : σ → Option σ} : Atomic (write .schema change (commit done))
  | read {next : σ → Program σ} (h : ∀ s, Atomic (next s)) : Atomic (read next)
  | reconnect {next : Program σ} (h : Atomic next) : Atomic (reconnect next)

theorem OneCommit.eq_or_exec (hp : OneCommit p) (h : p.Interrupted commits d w t) :
    t = d ∨ p.exec commits d w = some t := by
  induction hp generalizing d w with
  | done => exact .inl h
  | fail => exact .inl h
  | read _ ih => exact ih w h
  | write _ ih =>
      rcases h with h | h | ⟨changed, hchanged, h⟩
      · exact .inl h
      · exact .inl (h.trans committed_data)
      · rw [committed_data] at h
        rw [exec, hchanged, Option.bind_some, committed_data]
        exact ih h
  | commit =>
      rcases h with h | h
      · exact .inl h
      · exact .inr (congrArg some h.symm)

/-- **All is left of an atomic program or nothing.** -/
theorem Atomic.eq_or_run (hp : Atomic p) (h : p.Interrupted commits s s t) :
    t = s ∨ p.run commits s = some t := by
  induction hp with
  | oneCommit hp => exact hp.eq_or_exec h
  | schema =>
      rcases h with h | h | ⟨changed, hchanged, h | h⟩
      · exact .inl h
      · refine .inl (h.trans ?_)
        rw [committed]
        split_ifs <;> rfl
      · rw [committed] at h
        split_ifs at h
        · exact .inr (by rw [run, exec, hchanged, h]; rfl)
        · exact .inl h
      · exact .inr (by rw [run, exec, hchanged, show t = changed from h]; rfl)
  | read _ ih => exact ih s h
  | reconnect _ ih =>
      rcases h with h | h
      · exact .inl h
      · exact ih h

/-- **An atomic program whose result it does not change may be started again.** -/
theorem Atomic.resumable (hp : Atomic p)
    (hidem : ∀ s t, p.run commits s = some t → p.run commits t = some t) : p.Resumable commits := by
  intro s t h
  rcases hp.eq_or_run h with rfl | hrun
  · rfl
  · rw [hidem s t hrun, hrun]

/-- Changes of data, one after the other. -/
theorem exec_writes {ι : Type} {f : ι → σ → Option σ} {l : List ι} {last : Program σ} :
    (l.foldr (fun i next => write .data (f i) next) last).exec commits d w =
      (l.foldlM (fun s i => f i s) w).bind (last.exec commits d) := by
  induction l generalizing w with
  | nil => rfl
  | cons i l ih =>
      rw [List.foldr_cons, exec, List.foldlM_cons, Option.bind_eq_bind, Option.bind_assoc]
      refine Option.bind_congr fun changed _ => ?_
      rw [committed_data]
      exact ih

theorem oneCommit_writes {ι : Type} {f : ι → σ → Option σ} {l : List ι} {last : Program σ}
    (hlast : OneCommit last) : OneCommit (l.foldr (fun i next => write .data (f i) next) last) := by
  induction l with
  | nil => exact hlast
  | cons i l ih => exact .write ih

end Program

/-! ### Steps that are passed over when they are done -/

/-- Of some steps, one that is done changes nothing, every one is done behind itself, and the others
leave it done. -/
structure Settles {ι σ : Type} (step : ι → σ → Option σ) (Done : ι → σ → Prop)
    (l : List ι) : Prop where
  skip : ∀ i ∈ l, ∀ s, Done i s → step i s = some s
  does : ∀ i ∈ l, ∀ s t, step i s = some t → Done i t
  keeps : ∀ i ∈ l, ∀ j ∈ l, ∀ s t, Done i s → step j s = some t → Done i t

/-- Two steps that change nothing the second time change nothing together, if the second one leaves
alone what the first one has done. -/
theorem idem_bind {σ : Type} {f g : σ → Option σ} (hf : ∀ s t, f s = some t → f t = some t)
    (hg : ∀ s t, g s = some t → g t = some t)
    (hkeep : ∀ s t, f s = some s → g s = some t → f t = some t)
    {s t : σ} (h : (f s).bind g = some t) : (f t).bind g = some t := by
  obtain ⟨s', hs', ht⟩ := Option.bind_eq_some_iff.1 h
  rw [hkeep s' t (hf s s' hs') ht]
  exact hg s' t ht

section Steps

variable {ι σ : Type} {step : ι → σ → Option σ} {Done : ι → σ → Prop} {l l' : List ι} {s t : σ}

/-- What every step keeps holds at the end. -/
theorem foldlM_keeps {P : σ → Prop} (hstep : ∀ i ∈ l, ∀ s t, P s → step i s = some t → P t)
    (hs : P s)
    (hfold : l.foldlM (fun s i => step i s) s = some t) : P t := by
  induction l generalizing s with
  | nil =>
      obtain rfl := Option.some.inj hfold
      exact hs
  | cons i l ih =>
      obtain ⟨s', hi, hl⟩ := Option.bind_eq_some_iff.1 hfold
      obtain ⟨hstepi, hstepl⟩ := List.forall_mem_cons.1 hstep
      exact ih hstepl (hstepi s s' hs hi) hl

theorem Settles.subset (h : Settles step Done l) (hsub : l' ⊆ l) : Settles step Done l' where
  skip i hi := h.skip i (hsub hi)
  does i hi := h.does i (hsub hi)
  keeps i hi j hj := h.keeps i (hsub hi) j (hsub hj)

theorem Settles.foldlM_does (h : Settles step Done l)
    (hfold : l.foldlM (fun s i => step i s) s = some t) : ∀ i ∈ l, Done i t := by
  induction l generalizing s with
  | nil => exact fun _ => nofun
  | cons j l ih =>
      obtain ⟨s', hj, hl⟩ := Option.bind_eq_some_iff.1 hfold
      intro i hi
      rcases List.mem_cons.1 hi with rfl | hi
      · refine foldlM_keeps (fun j hj s t => ?_) (h.does i (List.mem_cons_self ..) s s' hj) hl
        exact h.keeps i (List.mem_cons_self ..) j (List.mem_cons_of_mem _ hj) s t
      · exact ih (h.subset (List.subset_cons_self ..)) hl i hi

theorem Settles.foldlM_skip (h : Settles step Done l) (hdone : ∀ i ∈ l, Done i s) :
    l.foldlM (fun s i => step i s) s = some s := by
  induction l with
  | nil => rfl
  | cons j l ih =>
      obtain ⟨hj, hl⟩ := List.forall_mem_cons.1 hdone
      rw [List.foldlM_cons, h.skip j (List.mem_cons_self ..) s hj]
      exact ih (h.subset (List.subset_cons_self ..)) hl

/-- **Steps lead on from any of them** to where they lead from the start. -/
theorem Settles.foldlM_resume (h : Settles step Done l) (hinitial : l' <+: l)
    (hfold : l'.foldlM (fun s i => step i s) s = some t) :
    l.foldlM (fun s i => step i s) t = l.foldlM (fun s i => step i s) s := by
  have h' : Settles step Done l' := h.subset hinitial.subset
  obtain ⟨rest, rfl⟩ := hinitial
  rw [List.foldlM_append, List.foldlM_append, h'.foldlM_skip (h'.foldlM_does hfold), hfold]

end Steps

/-! ### Stages -/

/-- A program with the mark that it gets. -/
structure Stage (κ ν σ : Type) where
  id : κ
  note : ν
  program : Program σ

section Stages

variable {κ ν σ : Type} [DecidableEq κ] (commits : Bool)

/-- The database with the marks. -/
abbrev Marked (κ ν σ : Type) : Type := σ × List (κ × ν)

/-- The stages in their order, without those that are marked. -/
def runStages : List (Stage κ ν σ) → Marked κ ν σ → Option (Marked κ ν σ)
  | [], s => some s
  | stage :: stages, s =>
      if stage.id ∈ s.2.map Prod.fst then runStages stages s
      else
        (stage.program.run commits s.1).bind fun t =>
          runStages stages (t, s.2 ++ [(stage.id, stage.note)])

/-- What may be left of stages that are interrupted: in a program, between a program and its mark,
or behind a mark. -/
def InterruptedStages : List (Stage κ ν σ) → Marked κ ν σ → Marked κ ν σ → Prop
  | [], s, t => t = s
  | stage :: stages, s, t =>
      if stage.id ∈ s.2.map Prod.fst then InterruptedStages stages s t
      else
        t.2 = s.2 ∧ stage.program.Interrupted commits s.1 s.1 t.1 ∨
          ∃ s', stage.program.run commits s.1 = some s' ∧
            InterruptedStages stages (s', s.2 ++ [(stage.id, stage.note)]) t

variable {commits : Bool} {stages : List (Stage κ ν σ)} {s t : Marked κ ν σ} {P : σ → Prop}

/-- Stages that are marked are passed over. -/
theorem interruptedStages_append (marked : List (Stage κ ν σ))
    (hmarked : ∀ stage ∈ marked, stage.id ∈ s.2.map Prod.fst)
    (h : InterruptedStages commits stages s t) :
    InterruptedStages commits (marked ++ stages) s t := by
  induction marked with
  | nil => exact h
  | cons stage marked ih =>
      obtain ⟨hstage, hmarked⟩ := List.forall_mem_cons.1 hmarked
      rw [List.cons_append, InterruptedStages, if_pos hstage]
      exact ih hmarked

/-- Marks are not taken back. -/
theorem marks_subset_of_interrupted (h : InterruptedStages commits stages s t) :
    s.2.map Prod.fst ⊆ t.2.map Prod.fst := by
  induction stages generalizing s with
  | nil =>
      obtain rfl : t = s := h
      exact List.Subset.refl _
  | cons stage stages ih =>
      rw [InterruptedStages] at h
      split_ifs at h with hmarked
      · exact ih h
      · rcases h with ⟨hmarks, _⟩ | ⟨s', _, hrest⟩
        · rw [hmarks]
          exact List.Subset.refl _
        · refine List.Subset.trans ?_ (ih hrest)
          rw [List.map_append]
          exact List.subset_append_left _ _

/-- What the programs keep holds of whatever is left. -/
theorem keeps_of_interruptedStages (hkeeps : ∀ stage ∈ stages, stage.program.Keeps P) (hs : P s.1)
    (h : InterruptedStages commits stages s t) : P t.1 := by
  induction stages generalizing s with
  | nil =>
      obtain rfl : t = s := h
      exact hs
  | cons stage stages ih =>
      obtain ⟨hstage, hstages⟩ := List.forall_mem_cons.1 hkeeps
      rw [InterruptedStages] at h
      split_ifs at h
      · exact ih hstages hs h
      · rcases h with ⟨_, hprogram⟩ | ⟨s', hrun, hrest⟩
        · exact hstage.of_interrupted hs hs hprogram
        · exact ih hstages (hstage.of_run hs hrun) hrest

/-- What the programs keep holds when all have ended. -/
theorem keeps_of_runStages (hkeeps : ∀ stage ∈ stages, stage.program.Keeps P) (hs : P s.1)
    (h : runStages commits stages s = some t) : P t.1 := by
  induction stages generalizing s with
  | nil => exact Option.some.inj h ▸ hs
  | cons stage stages ih =>
      obtain ⟨hstage, hstages⟩ := List.forall_mem_cons.1 hkeeps
      rw [runStages] at h
      split_ifs at h
      · exact ih hstages hs h
      · obtain ⟨s', hrun, hrest⟩ := Option.bind_eq_some_iff.1 h
        exact ih hstages (hstage.of_run hs hrun) hrest

theorem runStages_append (first rest : List (Stage κ ν σ)) :
    runStages commits (first ++ rest) s =
      (runStages commits first s).bind (runStages commits rest) := by
  induction first generalizing s with
  | nil => rfl
  | cons stage first ih =>
      rw [List.cons_append, runStages, runStages]
      split_ifs
      · exact ih
      · rw [Option.bind_assoc]
        exact Option.bind_congr fun t _ => ih

/-- Only the programs that run are marked. -/
theorem mark_of_runStages (h : runStages commits stages s = some t) {id : κ}
    (hid : id ∈ t.2.map Prod.fst) : id ∈ s.2.map Prod.fst ∨ id ∈ stages.map Stage.id := by
  induction stages generalizing s with
  | nil => exact .inl (Option.some.inj h ▸ hid)
  | cons stage stages ih =>
      rw [runStages] at h
      rw [List.map_cons, List.mem_cons]
      split_ifs at h
      · exact (ih h).imp_right .inr
      · obtain ⟨s', _, hrest⟩ := Option.bind_eq_some_iff.1 h
        rcases ih hrest with hold | hlater
        · rw [List.map_append, List.mem_append] at hold
          exact hold.imp_right fun hthis => .inl (List.mem_singleton.1 hthis)
        · exact .inr (.inr hlater)

/-- **Interrupted stages lead to the same result.** -/
theorem runStages_of_interrupted (hkeeps : ∀ stage ∈ stages, stage.program.Keeps P)
    (hres : ∀ stage ∈ stages, stage.program.ResumableFrom commits P) (hs : P s.1)
    (h : InterruptedStages commits stages s t) :
    runStages commits stages t = runStages commits stages s := by
  induction stages generalizing s with
  | nil =>
      obtain rfl : t = s := h
      rfl
  | cons stage stages ih =>
      obtain ⟨hstage, hstages⟩ := List.forall_mem_cons.1 hres
      obtain ⟨hkeep, hkeeps⟩ := List.forall_mem_cons.1 hkeeps
      rw [InterruptedStages] at h
      rw [runStages, runStages]
      split_ifs at h with hmarked
      · rw [if_pos hmarked, if_pos (marks_subset_of_interrupted h hmarked)]
        exact ih hkeeps hstages hs h
      · rw [if_neg hmarked]
        rcases h with ⟨hmarks, hprogram⟩ | ⟨s', hrun, hrest⟩
        · rw [if_neg (hmarks ▸ hmarked), hstage s.1 t.1 hs hprogram, hmarks]
        · have hnow : stage.id ∈ t.2.map Prod.fst := by
            refine marks_subset_of_interrupted hrest ?_
            rw [List.map_append]
            exact List.mem_append_right _ (List.mem_singleton_self _)
          rw [if_pos hnow, ih hkeeps hstages (hkeep.of_run hs hrun) hrest, hrun]
          rfl

end Stages

end Transactions
