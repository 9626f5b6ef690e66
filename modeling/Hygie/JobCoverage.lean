/-
**One library that fails does not stop the others.**

`run_scan_libraries` works through a list of libraries with one lock.  Whatever becomes of a
library, the next one gets its row and is looked up: only a cancellation, and a row that cannot be
opened or closed, end the list before its time.  And whatever happens after the lock has been taken,
the collection is brought up to date before it is given back.

Main definitions:

* `lookedUp`, `failsIn` — the libraries that are looked up, and the calls that fail;
* `Blames` — a program that raises only after a call that has failed.

Main results:

* `libraryRow_looks` — one library;
* `libraries_of_run` — **all libraries get their turn**.
-/

import Hygie.JobReports

set_option relaxedAutoImplicit false
set_option autoImplicit false

namespace Hygie

open Prog (after recording Reaches)

section Coverage

variable {V α β τ : Type} {s t u v : List (JobEvent V)}

/-- The library that a call looks up. -/
def looksUp : JobEvent V → Option String
  | ⟨.libraryById id, _⟩ => some id
  | _ => none

/-- The libraries that are looked up, in this order. -/
def lookedUp (l : List (JobEvent V)) : List String := l.filterMap looksUp

/-- How many calls have failed. -/
def failsIn (l : List (JobEvent V)) : ℕ := l.countP fun e => !e.2.isOk

theorem lookedUp_snoc (t : List (JobEvent V)) (e : JobEvent V) :
    lookedUp (t ++ [e]) = lookedUp t ++ (looksUp e).toList := by
  rw [lookedUp, List.filterMap_append]
  cases hlook : looksUp e <;> simp [hlook, lookedUp]

theorem length_opened_snoc (t : List (JobEvent V)) (e : JobEvent V) :
    (opened (t ++ [e])).length = (opened t).length + (openedBy e).toList.length := by
  rw [opened, List.filterMap_append, List.length_append]
  cases hopen : openedBy e <;> simp [hopen, opened]

theorem failsIn_snoc (t : List (JobEvent V)) (e : JobEvent V) :
    failsIn (t ++ [e]) = failsIn t + (!e.2.isOk).toNat := by
  rw [failsIn, List.countP_append]
  cases hfail : e.2.isOk <;> simp [hfail, failsIn]

/-! ### Programs that raise only after a call that has failed -/

/-- A program that raises only after a call that has failed. -/
def Blames (x : Job V α) : Prop :=
  ∀ t, after (recording Answers) x (fun _ u => failsIn t ≤ failsIn u)
    (fun _ u => failsIn t < failsIn u) t

namespace Blames

theorem call (q : JobCall V) : Blames (call q) := by
  intro t
  rw [after_call]
  refine ⟨fun b _ => ?_, fun e _ => ?_⟩
  · rw [failsIn_snoc]
    omega
  · rw [failsIn_snoc]
    exact Nat.lt_succ_self _

protected theorem pure (a : α) : Blames (pure a : Job V α) := fun _ => le_rfl

protected theorem bind {x : Job V α} {f : α → Job V β} (hx : Blames x) (hf : ∀ a, Blames (f a)) :
    Blames (x >>= f) := by
  intro t
  rw [Prog.after_bind]
  exact Prog.after_mono (fun a u hu => Prog.after_mono (fun _ _ hv => hu.trans hv)
    (fun _ _ hv => lt_of_le_of_lt hu hv) (hf a u)) (fun _ _ => id) (hx t)

theorem exceptWhen {caught : PyError → Bool} {x : Job V α} {h : PyError → Job V α}
    (hx : Blames x) (hh : ∀ e, Blames (h e)) : Blames (exceptWhen caught x h) := by
  intro t
  rw [Hygie.exceptWhen, Prog.after_tryCatch]
  refine Prog.after_mono (fun _ _ => id) (fun e u hu => ?_) (hx t)
  rw [Prog.after_ite, Prog.after_throw]
  refine ⟨fun _ => ?_, fun _ => hu⟩
  exact Prog.after_mono (fun _ _ hv => hu.le.trans hv) (fun _ _ hv => hu.trans hv) (hh e u)

end Blames

theorem blames_alertIfWanted (key title description kind detail : String) :
    Blames (V := V) (alertIfWanted key title description kind detail) := by
  refine .bind (.call _) fun wanted => ?_
  cases wanted with
  | false => exact .pure _
  | true => exact .bind (.call _) fun _ => .bind (.call _) fun _ => .call _

theorem blames_buildSharedCaches : Blames (V := V) buildSharedCaches := by
  refine .bind (.exceptWhen (.bind (.call _) fun _ => .pure _) fun _ => .bind (.call _) fun _ =>
    .bind (blames_alertIfWanted _ _ _ _ _) fun _ => .pure _) fun _ => ?_
  exact .bind (.call _) fun _ => .bind (.call _) fun _ => .pure _

/-! ### One library -/

/-- What a part of a record looks up, and how many rows it opens. -/
structure Looks (t u : List (JobEvent V)) (ids : List String) (rows : ℕ) : Prop where
  lookedUp_eq : lookedUp u = lookedUp t ++ ids
  opened_eq : (opened u).length = (opened t).length + rows

theorem Looks.refl (t : List (JobEvent V)) : Looks t t [] 0 := ⟨by simp, rfl⟩

theorem Looks.trans {ids ids' : List String} {m n : ℕ} (h : Looks t u ids m)
    (h' : Looks u v ids' n) : Looks t v (ids ++ ids') (m + n) :=
  ⟨by rw [h'.lookedUp_eq, h.lookedUp_eq, List.append_assoc],
    by rw [h'.opened_eq, h.opened_eq, add_assoc]⟩

/-- A call that neither looks up a library nor opens a row. -/
theorem Looks.snoc {ids : List String} {n : ℕ} {e : JobEvent V} (h : Looks t u ids n)
    (hlook : looksUp e = none) (hopen : openedBy e = none) :
    Looks t (u ++ [e]) ids n :=
  ⟨by simpa [lookedUp_snoc, hlook] using h.lookedUp_eq,
    by simpa [length_opened_snoc, hopen] using h.opened_eq⟩

theorem looks_of_scanning {x : Job V α} (h : Only Scanning x) :
    after (recording Answers) x (fun _ u => Looks t u [] 0) (fun _ u => Looks t u [] 0) t := by
  refine after_only (I := fun u => Looks t u [] 0) h (fun u e he hu => ?_) (.refl t)
  obtain ⟨q, r⟩ := e
  refine hu.snoc ?_ ?_
  · cases q <;> first | rfl | exact Bool.noConfusion he.2
  · cases q <;> first | rfl | exact Bool.noConfusion he.1

/-- One library is looked up, whatever comes of it. -/
theorem doScanOneLibrary_looks {pyRepr : String → String} (libraryId : String)
    (caches : Option (Option V × V × V)) :
    after (recording Answers) (doScanOneLibrary pyRepr libraryId caches)
      (fun _ u => Looks t u [libraryId] 0) (fun _ u => Looks t u [libraryId] 0) t := by
  have hlook : ∀ r, Looks t (t ++ [⟨.libraryById libraryId, r⟩]) [libraryId] 0 := fun r =>
    ⟨lookedUp_snoc t _, length_opened_snoc t _⟩
  have hrest : ∀ {γ : Type} {y : Job V γ} {r}, Only Scanning y →
      after (recording Answers) y (fun _ u => Looks t u [libraryId] 0)
        (fun _ u => Looks t u [libraryId] 0) (t ++ [⟨.libraryById libraryId, r⟩]) :=
    fun hy => Prog.after_mono (fun _ _ hu => (hlook _).trans hu) (fun _ _ hu => (hlook _).trans hu)
      (looks_of_scanning hy)
  rw [doScanOneLibrary, Prog.after_bind, after_call]
  refine ⟨fun found _ => ?_, fun e _ => hlook _⟩
  cases found with
  | none => exact hrest (.bind (scanning_call rfl rfl) fun _ => .pure _)
  | some lib => exact hrest (scanning_scanFound _ _ _)

/-! ### One row -/

/-- A program goes on as `Looks` says, or is broken off. -/
def LooksOrBreaks (t : List (JobEvent V)) (x : Job V α) (ids : List String) (rows : ℕ) : Prop :=
  after (recording Answers) x (fun _ u => Looks t u ids rows ∧ breaksIn t ≤ breaksIn u)
    (fun _ u => breaksIn t < breaksIn u) t

theorem closeRow_looks {id : ℕ} {token : Option ℕ} (status message : String) :
    LooksOrBreaks t
      (do
        call (.resetContext token)
        call (.finishJobRun id status message)) [] 0 := by
  rw [LooksOrBreaks, Prog.after_bind, after_call]
  refine ⟨fun _ _ => ?_, fun e he => (by cases he)⟩
  rw [after_call]
  refine ⟨fun _ _ => ⟨((Looks.refl t).snoc rfl rfl).snoc rfl rfl, ?_⟩, fun e _ => ?_⟩
  · rw [breaksIn_snoc, breaksIn_snoc]
    omega
  · rw [breaksIn_snoc, breaksIn_snoc]
    show breaksIn t < breaksIn t + 0 + 1
    omega

/-- **One row**: whatever the work raises, the row is closed and the job goes on, unless it is
broken off. -/
theorem jobRow_looks {jobType : String} {x : Job V (String × String)}
    {handle : PyError → Job V String} {ids : List String}
    (hx : ∀ t, after (recording Answers) x (fun _ u => Looks t u ids 0)
      (fun _ u => Looks t u ids 0) t)
    (hwork : Only Working x) (hhandle : ∀ e, Only Plain (handle e))
    (hquiet : ∀ e t, after (recording Answers) (handle e) (fun _ _ => True)
      (fun e' _ => e'.isException = false) t) :
    LooksOrBreaks t (jobRow jobType x PyError.isException handle) ids 1 := by
  rw [LooksOrBreaks, jobRow, Prog.after_bind, after_call]
  refine ⟨fun runId _ => ?_, fun e _ => ?_⟩
  swap
  · rw [breaksIn_snoc]
    exact Nat.lt_succ_self _
  rw [Prog.after_bind, after_call]
  refine ⟨fun token _ => ?_, fun e he => (by cases he)⟩
  set t' := t ++ [⟨.addJobRun jobType, .ok runId⟩] ++ [⟨.setContext runId, .ok token⟩] with ht'
  have hopened : Looks t (t ++ [⟨.addJobRun jobType, .ok runId⟩]) [] 1 :=
    ⟨by rw [lookedUp_snoc]; rfl, by rw [length_opened_snoc]; rfl⟩
  have hstart : Looks t t' [] 1 := hopened.snoc rfl rfl
  have hbreaks : breaksIn t' = breaksIn t := by
    rw [ht', breaksIn_snoc, breaksIn_snoc]
    rfl
  have hclose : ∀ {u status message}, Looks t' u ids 0 → breaksIn t' ≤ breaksIn u →
      after (recording Answers)
        (do
          call (.resetContext token)
          call (.finishJobRun runId status message))
        (fun _ v => Looks t v ids 1 ∧ breaksIn t ≤ breaksIn v)
        (fun _ v => breaksIn t < breaksIn v) u := by
    intro u status message hu hle
    refine Prog.after_mono (fun _ v hv => ⟨?_, ?_⟩) (fun _ v hv => ?_)
      (closeRow_looks status message)
    · simpa using (hstart.trans hu).trans hv.1
    · omega
    · omega
  have hbroken : ∀ {u e}, breaksIn t' < breaksIn u →
      after (recording Answers)
        ((do
          call (.resetContext token)
          call (.finishJobRun runId "error" "")) >>= fun _ => throw e)
        (fun (_ : Unit) v => Looks t v ids 1 ∧ breaksIn t ≤ breaksIn v)
        (fun _ v => breaksIn t < breaksIn v) u := by
    intro u e hu
    rw [Prog.after_bind]
    refine Prog.after_mono (fun _ v hv => ?_) (fun _ v hv => ?_) (closeRow_looks "error" "")
    · show breaksIn t < breaksIn v
      have hle := hv.2
      omega
    · omega
  rw [Prog.after_bind, Prog.after_attempt]
  refine Prog.after_mono (fun result u hu => hclose hu.1 hu.2) (fun e u hu => ?_)
    (Prog.after_and (hx t') (hwork.relays t'))
  show after _ (if e.isException then _ else _) _ _ u
  rw [Prog.after_ite]
  refine ⟨fun _ => ?_, fun he => hbroken (hu.2.2 (by simpa using he))⟩
  rw [Prog.after_bind, Prog.after_attempt]
  refine Prog.after_mono (fun msg v hv => hclose ?_ ?_) (fun e' v hv => ?_)
    (Prog.after_and (looks_of_scanning (hhandle e).scanning)
      (Prog.after_and ((hhandle e).relays u) (hquiet e u)))
  · simpa using hu.1.trans hv.1
  · exact hu.2.1.trans hv.2.1
  · exact hbroken (lt_of_le_of_lt hu.2.1 (hv.2.1.2 hv.2.2))

/-- A line of the log is not written only when the task is cancelled. -/
theorem addLog_quiet (level : String) (message : LogText) (source : String) :
    after (recording Answers) (addLog (V := V) level message source) (fun _ _ => True)
      (fun e _ => e.isException = false) t := by
  rw [addLog, after_call]
  exact ⟨fun _ _ => trivial, fun e he => he e rfl⟩

variable {pyRepr : String → String}

/-- **The row of one library.** -/
theorem libraryRow_looks (libraryId : String) (caches : Option (Option V × V × V)) :
    LooksOrBreaks t (libraryRow pyRepr libraryId caches) [libraryId] 1 := by
  refine jobRow_looks (fun u => ?_) (.bind (working_doScanOneLibrary _ _) fun _ => .pure _)
    (fun _ => .bind (plain_addLog _ _ _) fun _ => .pure _) fun e u => ?_
  · rw [Prog.after_bind]
    exact Prog.after_mono (fun _ _ hv => (Prog.after_pure _).2 hv) (fun _ _ => id)
      (doScanOneLibrary_looks libraryId caches)
  · rw [Prog.after_bind]
    exact Prog.after_mono (fun _ _ _ => (Prog.after_pure _).2 trivial) (fun _ _ => id)
      (addLog_quiet _ _ _)

/-- The rows of a list of libraries. -/
theorem libraryRows_look (caches : Option (Option V × V × V)) (ids : List String) :
    LooksOrBreaks t (ids.foldlM (fun _ id => libraryRow pyRepr id caches) ()) ids ids.length := by
  refine Prog.after_foldlM
    (I := fun done _ u => Looks t u done done.length ∧ breaksIn t ≤ breaksIn u)
    ⟨.refl t, le_rfl⟩ ?_
  rintro done id rest _ u - ⟨hu, hle⟩
  refine Prog.after_mono (fun _ v hv => ⟨?_, hle.trans hv.2⟩)
    (fun _ v hv => lt_of_le_of_lt hle hv) (libraryRow_looks id caches)
  simpa using hu.trans hv.1

/-! ### The list -/

/-- What a list of libraries comes to: it is broken off, or all libraries have had their turn, or a
call has failed before the first one. -/
inductive Outcome (ids : List String) (t u : List (JobEvent V)) : Prop
  | broken (h : breaksIn t < breaksIn u)
  | all (h : Looks t u ids ids.length)
  | noCaches (h : Looks t u [] 0) (hfails : failsIn t < failsIn u)

/-- A call that neither looks up a library nor opens a row changes nothing of it. -/
theorem Outcome.snoc {ids : List String} {e : JobEvent V} (h : Outcome ids t u)
    (hlook : looksUp e = none) (hopen : openedBy e = none) :
    Outcome ids t (u ++ [e]) := by
  cases h with
  | broken h =>
      refine .broken ?_
      rw [breaksIn_snoc]
      omega
  | all h => exact .all (h.snoc hlook hopen)
  | noCaches h hfails =>
      refine .noCaches (h.snoc hlook hopen) ?_
      rw [failsIn_snoc]
      omega

/-- The libraries, and the line of the log when they cannot be scanned. -/
theorem scanLibraries_outcome (ids : List String) :
    after (recording Answers)
      (exceptWhen PyError.isException
        (do
          let caches ← buildSharedCaches
          ids.foldlM (fun _ id => libraryRow (V := V) pyRepr id (some caches)) ())
        fun e => addLog "ERROR" (.lm "scan.error" [("detail", e.text)]) "scan")
      (fun _ u => Outcome ids t u) (fun _ u => Outcome ids t u) t := by
  rw [exceptWhen, Prog.after_tryCatch]
  suffices hwork : after (recording Answers)
      (do
        let caches ← buildSharedCaches
        ids.foldlM (fun _ id => libraryRow (V := V) pyRepr id (some caches)) ())
      (fun _ u => Outcome ids t u) (fun _ u => Outcome ids t u) t by
    refine Prog.after_mono (fun _ _ => id) (fun e u hu => ?_) hwork
    rw [Prog.after_ite, Prog.after_throw]
    refine ⟨fun _ => ?_, fun _ => hu⟩
    rw [addLog, after_call]
    exact ⟨fun _ _ => hu.snoc rfl rfl, fun _ _ => hu.snoc rfl rfl⟩
  rw [Prog.after_bind]
  refine Prog.after_mono (fun caches u hu => ?_) (fun e u hu => .noCaches hu.1 hu.2.1)
    (Prog.after_and (looks_of_scanning plain_buildSharedCaches.scanning)
      (Prog.after_and (blames_buildSharedCaches t) (plain_buildSharedCaches.relays t)))
  refine Prog.after_mono (fun _ v hv => ?_) (fun _ v hv => .broken ?_)
    (libraryRows_look (some caches) ids)
  · exact .all (by simpa using hu.1.trans hv.1)
  · exact lt_of_le_of_lt hu.2.2 hv

/-- What a record comes to when the lock has been taken: the collection is brought up to date, and
nothing comes after it but the notifications and the release of the lock. -/
structure Finished (ids : List String) (s t : List (JobEvent V)) : Prop where
  outcome : Outcome ids s t
  sync : ∃ m r l, t = s ++ m ++ ⟨.syncCollection, r⟩ :: l ∧
    ∀ e ∈ l, e.1 = .sendPending ∨ e.1 = .release

theorem Finished.snoc {ids : List String} {e : JobEvent V} (h : Finished ids s t)
    (he : e.1 = .sendPending ∨ e.1 = .release) : Finished ids s (t ++ [e]) := by
  obtain ⟨m, r, l, ht, hl⟩ := h.sync
  refine ⟨?_, m, r, l ++ [e], by rw [ht]; simp, fun f hf => ?_⟩
  · obtain ⟨q, b⟩ := e
    rcases he with rfl | rfl <;> exact h.outcome.snoc rfl rfl
  · rcases List.mem_append.1 hf with hf | hf
    · exact hl f hf
    · rwa [List.mem_singleton.1 hf]

/-- After the libraries come the collection and the notifications. -/
theorem post_finished {ids : List String} (h : Outcome ids s t) (hst : ∃ m, t = s ++ m) :
    after (recording Answers)
      (do
        call .syncCollection
        call .sendPending)
      (fun _ => Finished ids s) (fun _ => Finished ids s) t := by
  have hsync : ∀ r, Finished ids s (t ++ [⟨.syncCollection, r⟩]) := by
    obtain ⟨m, rfl⟩ := hst
    exact fun r => ⟨h.snoc rfl rfl, m, r, [], rfl, by simp⟩
  rw [Prog.after_bind, after_call]
  refine ⟨fun _ _ => ?_, fun e _ => hsync _⟩
  rw [after_call]
  exact ⟨fun _ _ => (hsync _).snoc (.inl rfl), fun _ _ => (hsync _).snoc (.inl rfl)⟩

/-- A program only adds to the record. -/
theorem after_grows (x : Job V α) :
    after (recording Answers) x (fun _ u => ∃ m, u = t ++ m) (fun _ u => ∃ m, u = t ++ m) t := by
  refine Prog.after_of_always (Prog.Always.trivial x) (fun q u r v _ hu hserve => ?_)
    ⟨[], by simp⟩
  obtain ⟨m, rfl⟩ := hu
  exact ⟨m ++ [⟨q, r⟩], by rw [hserve.2, List.append_assoc]⟩

theorem runScanLibraries_finished (ids : List String) :
    after (recording Answers) (runScanLibraries (V := V) pyRepr ids)
      (fun _ t => acquired t = acquired s ∨ Finished ids s t)
      (fun _ t => acquired t = acquired s ∨ Finished ids s t) s := by
  have hidle : ∀ {t : List (JobEvent V)} {e}, isAcquired e = false → acquired t = acquired s →
      acquired (t ++ [e]) = acquired s := by
    intro t e he ht
    rw [← ht, acquired, List.countP_append, List.countP_singleton, he]
    rfl
  rw [runScanLibraries, unlessLocked, Prog.after_bind, after_call]
  refine ⟨fun taken _ => ?_, fun e _ => .inl (hidle rfl rfl)⟩
  cases taken with
  | true =>
      show after _ (addLog _ _ _) _ _ _
      rw [addLog, after_call]
      exact ⟨fun _ _ => .inl (hidle rfl (hidle rfl rfl)),
        fun _ _ => .inl (hidle rfl (hidle rfl rfl))⟩
  | false =>
      show after _ (exceptWhen _ (withScanLock _) _) _ _ _
      rw [exceptWhen, Prog.after_tryCatch, withScanLock, Prog.after_bind, after_call]
      have hpassed : ∀ {e : PyError} {t : List (JobEvent V)},
          acquired t = acquired s ∨ Finished ids s t →
          after (recording Answers) (if e.isLockNotAvailable then pure () else throw e : Job V Unit)
            (fun _ t => acquired t = acquired s ∨ Finished ids s t)
            (fun _ t => acquired t = acquired s ∨ Finished ids s t) t := by
        intro e t ht
        rw [Prog.after_ite]
        exact ⟨fun _ => ht, fun _ => ht⟩
      refine ⟨fun _ _ => ?_, fun e _ => hpassed (.inl (hidle rfl (hidle rfl rfl)))⟩
      -- with the lock, the record from `s` on starts with two calls that count for nothing
      set t := s ++ [⟨.locked, .ok false⟩] ++ [⟨.acquire, .ok ()⟩] with ht
      have hstart : ∀ {u}, Outcome ids t u → Outcome ids s u := by
        have hlooks : Looks s t [] 0 := ((Looks.refl s).snoc rfl rfl).snoc rfl rfl
        have hbreaks : breaksIn t = breaksIn s := by
          rw [ht, breaksIn_snoc, breaksIn_snoc]
          rfl
        have hfails : failsIn t = failsIn s := by
          rw [ht, failsIn_snoc, failsIn_snoc]
          rfl
        rintro u (h | h | ⟨h, hlt⟩)
        · exact .broken (hbreaks ▸ h)
        · exact .all (by simpa using hlooks.trans h)
        · exact .noCaches (by simpa using hlooks.trans h) (hfails ▸ hlt)
      have hbody : ∀ {u}, Outcome ids t u → (∃ m, u = t ++ m) →
          after (recording Answers)
            (do
              call .syncCollection
              call .sendPending)
            (fun _ => Finished ids s) (fun _ => Finished ids s) u := by
        rintro u hu ⟨m, rfl⟩
        exact post_finished (hstart hu) ⟨_, by rw [ht, List.append_assoc, List.append_assoc]⟩
      have hrelease : ∀ {u}, Finished ids s u →
          after (recording Answers) (call .release) (fun _ => Finished ids s)
            (fun _ => Finished ids s) u := by
        intro u hu
        rw [after_call]
        exact ⟨fun _ _ => hu.snoc (.inr rfl), fun _ _ => hu.snoc (.inr rfl)⟩
      rw [Prog.after_finallyDo, Prog.after_finallyDo]
      refine Prog.after_mono (fun _ u hu => ?_) (fun e u hu => ?_)
        (Prog.after_and (scanLibraries_outcome ids) (after_grows _))
      all_goals
        refine Prog.after_mono (fun _ v hv => ?_) (fun _ v hv => ?_) (hbody hu.1 hu.2)
        all_goals
          exact Prog.after_mono (fun _ w hw => by first | exact .inr hw | exact hpassed (.inr hw))
            (fun _ w hw => hpassed (.inr hw)) (hrelease hv)

/-! ### The law -/

theorem acquired_append (l l' : List (JobEvent V)) :
    acquired (l ++ l') = acquired l + acquired l' :=
  List.countP_append

/-- **All libraries get their turn.**  Once the lock is taken, the collection is brought up to date,
and nothing comes after it but the notifications and the release of the lock.  And unless a call is
cancelled or a row can be neither opened nor closed, all libraries are looked up in their order and
each has its row, or a call has failed before the first one. -/
theorem libraries_of_run {ids : List String} {o : Except PyError Unit} {l : List (JobEvent V)}
    (hrun : Reaches (recording Answers) (runScanLibraries pyRepr ids) s o (s ++ l))
    (htaken : acquired l ≠ 0) :
    (breaksIn l = 0 →
      (lookedUp l = ids ∧ (opened l).length = ids.length) ∨
        (lookedUp l = [] ∧ opened l = [] ∧ failsIn l ≠ 0)) ∧
      ∃ m r l', l = m ++ ⟨.syncCollection, r⟩ :: l' ∧
        ∀ e ∈ l', e.1 = .sendPending ∨ e.1 = .release := by
  have hfinished : Finished ids s (s ++ l) := by
    have hends := Prog.after_iff.1 (runScanLibraries_finished ids) _ _ hrun
    have hnot : acquired (s ++ l) ≠ acquired s := by
      rw [acquired_append]
      omega
    cases o with
    | ok a => exact hends.resolve_left hnot
    | error e => exact hends.resolve_left hnot
  refine ⟨fun hwhole => ?_, ?_⟩
  · have hlooks : ∀ {found n}, Looks s (s ++ l) found n →
        lookedUp l = found ∧ (opened l).length = n := by
      intro found n h
      have hlook := h.lookedUp_eq
      have hopen := h.opened_eq
      rw [lookedUp, List.filterMap_append] at hlook
      rw [opened, List.filterMap_append, List.length_append] at hopen
      exact ⟨List.append_cancel_left hlook, Nat.add_left_cancel hopen⟩
    rcases hfinished.outcome with h | h | ⟨h, hfails⟩
    · have happend : breaksIn (s ++ l) = breaksIn s + breaksIn l := List.countP_append
      omega
    · exact .inl (hlooks h)
    · refine .inr ⟨(hlooks h).1, List.length_eq_zero_iff.1 (hlooks h).2, ?_⟩
      have happend : failsIn (s ++ l) = failsIn s + failsIn l := List.countP_append
      omega
  · obtain ⟨m, r, l', hsplit, hl'⟩ := hfinished.sync
    rw [List.append_assoc] at hsplit
    exact ⟨m, r, l', List.append_cancel_left hsplit, hl'⟩

theorem libraries_of_run_sample :
    (breaksIn (sampleRun (.libraries ["a", "b"])).2 = 0 →
      (lookedUp (sampleRun (.libraries ["a", "b"])).2 = ["a", "b"] ∧
        (opened (sampleRun (.libraries ["a", "b"])).2).length = 2) ∨
        (lookedUp (sampleRun (.libraries ["a", "b"])).2 = [] ∧
          opened (sampleRun (.libraries ["a", "b"])).2 = [] ∧
            failsIn (sampleRun (.libraries ["a", "b"])).2 ≠ 0)) ∧
      ∃ m r l', (sampleRun (.libraries ["a", "b"])).2 = m ++ ⟨.syncCollection, r⟩ :: l' ∧
        ∀ e ∈ l', e.1 = .sendPending ∨ e.1 = .release :=
  libraries_of_run (reaches_sampleRun (.libraries ["a", "b"])) (by decide)

end Coverage

end Hygie
