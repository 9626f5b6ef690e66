/-
**A job sets out to close every row that it has opened.**

However a scan job ends — it returns, an exception leaves it, it is cancelled, its time is up — and
whatever the functions it calls answer: for every row of `job_history` whose identifier it has been
given, `finish_job_run` is called once, in the order in which the rows were opened; the release of
the lock is called as often as the lock was taken; and the lines of the log belong to the job that
they belonged to before.  A call of `finish_job_run` may itself raise; its row then stays as it is,
and nothing tries again.

Main definitions:

* `opened`, `closings`, `acquired`, `releases` — what a record says;
* `Ledger` — the account of a part of a record: the rows to be closed, the locks to be released, and
  the job of the log.

Main results:

* `Ledger.quiet` and its companions — what one call does to the account;
* `jobRow_balances`, `withScanLock_balances` — a row and a lock;
* `run_balances` — **the account of a job is settled**.
-/

import Hygie.JobRuns

set_option relaxedAutoImplicit false
set_option autoImplicit false

namespace Hygie

open Prog (after recording Reaches)

/-! ### The calls that a program makes -/

namespace JobCall

variable {V : Type}

/-- The calls about the lock, the rows and the log of a job. -/
def books : JobCall V → Bool
  | acquire | release | addJobRun _ | finishJobRun .. | setContext _ | resetContext _ => true
  | _ => false

/-- The scans of libraries. -/
def scans : JobCall V → Bool
  | scanLibrary _ | gatherScans .. | scanPlexLibrary .. => true
  | _ => false

/-- The lookup of a library. -/
def looks : JobCall V → Bool
  | libraryById _ => true
  | _ => false

/-- None of them. -/
def plain (q : JobCall V) : Bool := !q.books && !q.scans && !q.looks

end JobCall

section Calls

variable {V α β τ : Type} {P P' : JobCall V → Prop} {s : List (JobEvent V)}

/-- A call that ends a job before its time: one that is cancelled, or a row that cannot be opened
or closed. -/
def breaks (e : JobEvent V) : Bool :=
  match e with
  | ⟨.addJobRun _, r⟩ => !r.isOk
  | ⟨.finishJobRun .., r⟩ => !r.isOk
  | ⟨_, .ok _⟩ => false
  | ⟨_, .error err⟩ => !err.isException

/-- How many such calls are on record. -/
def breaksIn (l : List (JobEvent V)) : ℕ := l.countP breaks

theorem breaksIn_snoc (l : List (JobEvent V)) (e : JobEvent V) :
    breaksIn (l ++ [e]) = breaksIn l + (breaks e).toNat := by
  rw [breaksIn, List.countP_append]
  cases hbreak : breaks e <;> simp [hbreak, breaksIn]

theorem breaks_of_error (q : JobCall V) {e : PyError} (h : e.isException = false) :
    breaks ⟨q, .error e⟩ = true := by
  cases q <;> simp [breaks, h, Except.isOk, Except.toBool]

/-- **One call**: its answer goes on record. -/
theorem after_call (q : JobCall V) {R : q.Body → List (JobEvent V) → Prop}
    {E : PyError → List (JobEvent V) → Prop} :
    after (recording Answers) (call q) R E s ↔
      (∀ b, Answers s q (.ok b) → R b (s ++ [⟨q, .ok b⟩])) ∧
        ∀ e, Answers s q (.error e) → E e (s ++ [⟨q, .error e⟩]) := by
  rw [call, Prog.after_bind, Prog.after_perform]
  constructor
  · intro h
    exact ⟨fun b hb => h (.ok b) _ ⟨hb, rfl⟩, fun e he => h (.error e) _ ⟨he, rfl⟩⟩
  · rintro ⟨hok, herror⟩ r t ⟨hr, rfl⟩
    cases r with
    | ok b => exact hok b hr
    | error e => exact herror e hr

/-- A program is cancelled only by one of its calls. -/
def Relays (x : Job V α) : Prop :=
  ∀ s, after (recording Answers) x (fun _ t => breaksIn s ≤ breaksIn t)
    (fun e t => breaksIn s ≤ breaksIn t ∧ (e.isException = false → breaksIn s < breaksIn t)) s

/-- A program whose calls all satisfy `P`, and which is cancelled only by one of them. -/
structure Only (P : JobCall V → Prop) (x : Job V α) : Prop where
  always : Prog.Always (fun _ _ => True) P x
  relays : Relays x

namespace Only

theorem mono {x : Job V α} (h : Only P x) (himp : ∀ q, P q → P' q) : Only P' x :=
  ⟨fun t o hrun q hq => himp q (h.always t o hrun q hq), h.relays⟩

theorem call {q : JobCall V} (h : P q) : Only P (call q) := by
  constructor
  · refine Prog.Always.bind ?_ fun r => ?_
    · exact Prog.always_iff_wp.2 ((Prog.wp_perform q).2 ⟨h, fun _ _ => trivial⟩)
    · cases r with
      | ok b => exact .pure b
      | error e => exact Prog.always_iff_wp.2 ((Prog.wp_throw e).2 trivial)
  · intro s
    rw [after_call]
    refine ⟨fun b _ => ?_, fun e _ => ⟨?_, fun he => ?_⟩⟩
    · rw [breaksIn_snoc]
      omega
    · rw [breaksIn_snoc]
      omega
    · rw [breaksIn_snoc, breaks_of_error q he, Bool.toNat_true]
      omega

protected theorem pure (a : α) : Only P (pure a : Job V α) := ⟨.pure a, fun _ => le_rfl⟩

theorem throw {e : PyError} (he : e.isException = true) : Only P (throw e : Job V α) :=
  ⟨Prog.always_iff_wp.2 ((Prog.wp_throw e).2 trivial), fun _ =>
    ⟨le_rfl, fun h => absurd (he.symm.trans h) (by decide)⟩⟩

protected theorem bind {x : Job V α} {f : α → Job V β} (hx : Only P x) (hf : ∀ a, Only P (f a)) :
    Only P (x >>= f) := by
  refine ⟨hx.always.bind fun a => (hf a).always, fun s => ?_⟩
  rw [Prog.after_bind]
  refine Prog.after_mono (fun a t ht => ?_) (fun _ _ => id) (hx.relays s)
  refine Prog.after_mono (fun _ u hu => ht.trans hu) (fun _ u hu => ?_) ((hf a).relays t)
  exact ⟨ht.trans hu.1, fun he => lt_of_le_of_lt ht (hu.2 he)⟩

protected theorem ite {c : Prop} [Decidable c] {x y : Job V α} (hx : c → Only P x)
    (hy : ¬ c → Only P y) : Only P (if c then x else y) := by
  split_ifs with h
  · exact hx h
  · exact hy h

/-- Catching, where the handler is as required after an exception, and where only what has been
raised is raised again. -/
theorem tryCatch {x : Job V α} {h : PyError → Job V α} (hx : Only P x)
    (hh : ∀ e, Only P (h e) ∨ ∃ e', h e = MonadExcept.throw e' ∧
      (e'.isException = false → e.isException = false)) : Only P (tryCatch x h) := by
  refine ⟨hx.always.tryCatch fun e => ?_, fun s => ?_⟩
  · rcases hh e with he | ⟨e', he, -⟩
    · exact he.always
    · rw [he]
      exact Prog.always_iff_wp.2 ((Prog.wp_throw e').2 trivial)
  · rw [Prog.after_tryCatch]
    refine Prog.after_mono (fun _ _ => id) (fun e t ht => ?_) (hx.relays s)
    rcases hh e with he | ⟨e', he, himp⟩
    · refine Prog.after_mono (fun _ u hu => ht.1.trans hu) (fun _ u hu => ?_) (he.relays t)
      exact ⟨ht.1.trans hu.1, fun h => lt_of_le_of_lt ht.1 (hu.2 h)⟩
    · rw [he]
      exact ⟨ht.1, fun h => ht.2 (himp h)⟩

theorem exceptWhen {caught : PyError → Bool} {x : Job V α} {h : PyError → Job V α}
    (hx : Only P x) (hh : ∀ e, Only P (h e)) : Only P (exceptWhen caught x h) := by
  refine hx.tryCatch fun e => ?_
  by_cases hc : caught e = true
  · rw [if_pos hc]
    exact .inl (hh e)
  · rw [if_neg hc]
    exact .inr ⟨e, rfl, id⟩

theorem waitFor {x : Job V α} (hx : Only P x) : Only P (waitFor x) := by
  refine hx.tryCatch fun e => ?_
  by_cases hc : e = .cancelled true
  · rw [if_pos hc]
    exact .inl (throw rfl)
  · rw [if_neg hc]
    exact .inr ⟨e, rfl, id⟩

theorem foldlM {f : β → τ → Job V β} (hf : ∀ b a, Only P (f b a)) (l : List τ) (b : β) :
    Only P (l.foldlM f b) := by
  induction l generalizing b with
  | nil => exact .pure b
  | cons a l ih => exact (hf b a).bind ih

end Only

/-- What one call of a kind preserves, a program of such calls does. -/
theorem after_only {I : List (JobEvent V) → Prop} {x : Job V α} (h : Only P x)
    (hkeep : ∀ t (e : JobEvent V), P e.1 → I t → I (t ++ [e])) (hstart : I s) :
    after (recording Answers) x (fun _ => I) (fun _ => I) s := by
  refine Prog.after_of_always h.always (fun q t r u hq hI hserve => ?_) hstart
  obtain ⟨-, rfl⟩ := hserve
  exact hkeep t ⟨q, r⟩ hq hI

end Calls

/-! ### What the parts of a scan call -/

section Parts

variable {V α : Type} {pyRepr : String → String} {readInt : String → Option ℤ}

/-- No scan, no bookkeeping, and no lookup of a library. -/
abbrev Plain (q : JobCall V) : Prop := q.plain = true

/-- No bookkeeping, and no lookup of a library. -/
abbrev Scanning (q : JobCall V) : Prop := q.books = false ∧ q.looks = false

/-- No bookkeeping. -/
abbrev Working (q : JobCall V) : Prop := q.books = false

theorem Only.scanning {x : Job V α} (h : Only Plain x) : Only Scanning x :=
  h.mono fun q hq => by
    simp only [Plain, JobCall.plain, Bool.and_eq_true, Bool.not_eq_true'] at hq
    exact ⟨hq.1.1, hq.2⟩

theorem Only.working {x : Job V α} (h : Only Scanning x) : Only Working x :=
  h.mono fun _ hq => hq.1

theorem plain_call {q : JobCall V} (h : Plain q) : Only Plain (call q) := .call h

theorem scanning_call {q : JobCall V} (hbooks : q.books = false) (hlooks : q.looks = false) :
    Only Scanning (call q) :=
  .call ⟨hbooks, hlooks⟩

theorem working_call {q : JobCall V} (h : Working q) : Only Working (call q) :=
  .call h

theorem plain_addLog (level : String) (message : LogText) (source : String) :
    Only (V := V) Plain (addLog level message source) := plain_call rfl

theorem plain_alertIfWanted (key title description kind detail : String) :
    Only (V := V) Plain (alertIfWanted key title description kind detail) := by
  refine .bind (plain_call rfl) fun wanted => ?_
  cases wanted with
  | false => exact .pure _
  | true => exact .bind (plain_call rfl) fun _ => .bind (plain_call rfl) fun _ => plain_call rfl

theorem plain_buildSeerrCache (warning : PyError → LogText) :
    Only (V := V) Plain (buildSeerrCache warning) :=
  Only.exceptWhen (.bind (plain_call rfl) fun _ => .pure _) fun _ =>
    (plain_addLog _ _ _).bind fun _ => (plain_alertIfWanted _ _ _ _ _).bind fun _ => .pure _

theorem plain_buildSharedCaches : Only (V := V) Plain buildSharedCaches :=
  (plain_buildSeerrCache _).bind fun _ => .bind (plain_call rfl) fun _ =>
    .bind (plain_call rfl) fun _ => .pure _

theorem plain_abortScanNoUsers (serverId serverName : String) :
    Only (V := V) Plain (abortScanNoUsers serverId serverName) :=
  (plain_addLog _ _ _).bind fun _ => plain_call rfl

theorem plain_userIdsOf (users : List (Option String)) :
    Only (V := V) Plain (userIdsOf users) := by
  unfold userIdsOf
  cases users.mapM id with
  | none => exact .throw rfl
  | some ids => exact .pure ids

theorem plain_activityLog (serverId : String) : Only (V := V) Plain (activityLog serverId) :=
  Only.exceptWhen (.bind (plain_call rfl) fun _ => .pure _) fun _ => .pure _

theorem plain_parallelScans : Only (V := V) Plain (parallelScans readInt) :=
  .bind (plain_call rfl) fun _ => .pure _

theorem plain_serversToScan : Only (V := V) Plain serversToScan :=
  .bind (plain_call rfl) fun _ => .ite (fun _ => .bind (plain_call rfl) fun _ => .pure _) fun _ =>
    .pure _

theorem plain_alertIfUnreadable (serverId serverName : String) (e : PyError) :
    Only (V := V) Plain (alertIfUnreadable serverId serverName e) := by
  refine .ite (fun _ => .bind (plain_call rfl) fun wanted => ?_) fun _ => .pure _
  cases wanted with
  | false => exact .pure _
  | true => exact plain_call rfl

theorem plain_addResult (serverId serverName : String) (added : ℕ) (result : Except PyError ℕ) :
    Only (V := V) Plain (addResult serverId serverName added result) := by
  cases result with
  | ok n => exact .pure _
  | error e =>
      exact .ite (fun _ => .bind (plain_addLog _ _ _) fun _ =>
        .bind (plain_alertIfUnreadable _ _ _) fun _ => .pure _) fun _ => .pure _

theorem only_orBuild {P : JobCall V → Prop} (cache : Option α) {build : Job V α}
    (h : Only P build) : Only P (orBuild cache build) := by
  cases cache with
  | none => exact h
  | some cache => exact .pure cache

theorem scanning_scanEmbyLibrary (lib : ScanLibrary) (serverId serverName : String)
    (seerrCache radarrCache sonarrCache : Option V) :
    Only Scanning
      (scanEmbyLibrary lib serverId serverName seerrCache radarrCache sonarrCache) := by
  refine .bind (scanning_call rfl rfl) fun users =>
    .bind (plain_userIdsOf users).scanning fun ids => .ite (fun _ =>
      .bind (plain_abortScanNoUsers _ _).scanning fun _ => .pure _) fun _ => ?_
  exact .bind (only_orBuild _ (scanning_call rfl rfl)) fun _ =>
    .bind (only_orBuild _ (scanning_call rfl rfl)) fun _ => .bind (scanning_call rfl rfl) fun _ =>
      .bind (plain_activityLog _).scanning fun _ => .bind (scanning_call rfl rfl) fun _ =>
        .bind (scanning_call rfl rfl) fun _ => .pure _

theorem scanning_scanFound (libraryId : String) (lib : ScanLibrary)
    (caches : Option (Option V × V × V)) :
    Only Scanning (scanFound pyRepr libraryId lib caches) := by
  refine .bind (scanning_call rfl rfl) fun servers => .ite (fun _ =>
    .bind (scanning_call rfl rfl) fun _ => .pure _) fun _ =>
      .bind (scanning_call rfl rfl) fun _ => ?_
  refine .bind (only_orBuild _ (plain_buildSeerrCache _).scanning) fun _ => .ite (fun _ => ?_)
    fun _ => scanning_scanEmbyLibrary _ _ _ _ _ _
  exact .bind (scanning_call rfl rfl) fun _ => .bind (scanning_call rfl rfl) fun _ => .pure _

theorem working_doScanOneLibrary (libraryId : String) (caches : Option (Option V × V × V)) :
    Only Working (doScanOneLibrary pyRepr libraryId caches) := by
  refine .bind (working_call rfl) fun found => ?_
  cases found with
  | none => exact .bind (working_call rfl) fun _ => .pure _
  | some lib => exact (scanning_scanFound _ _ _).working

theorem scanning_scanOnePlex (server : ScanServer) (seerrCache : Option V) (added : ℕ)
    (lib : ScanLibrary) : Only Scanning (scanOnePlex server seerrCache added lib) :=
  .exceptWhen (.bind (scanning_call rfl rfl) fun _ => .pure _) fun _ =>
    .bind (scanning_call rfl rfl) fun _ => .pure _

theorem scanning_scanSingleServer (server : ScanServer) (caches : Option V × V × V) :
    Only Scanning (scanSingleServer readInt server caches) := by
  refine .ite (fun _ => .bind (scanning_call rfl rfl) fun libs => .foldlM (fun _ _ =>
    scanning_scanOnePlex _ _ _ _) _ _) fun _ => .ite (fun _ =>
      .bind (scanning_call rfl rfl) fun _ => .pure _) fun _ => ?_
  refine .bind (scanning_call rfl rfl) fun _ => .bind (scanning_call rfl rfl) fun libs =>
    .ite (fun _ => .pure _) fun _ => .bind (scanning_call rfl rfl) fun users =>
      .bind (plain_userIdsOf users).scanning fun ids => .ite (fun _ =>
        .bind (plain_abortScanNoUsers _ _).scanning fun _ => .pure _) fun _ => ?_
  exact .bind (scanning_call rfl rfl) fun _ => .bind (plain_activityLog _).scanning fun _ =>
    .bind plain_parallelScans.scanning fun _ => .bind (scanning_call rfl rfl) fun _ =>
      .foldlM (fun _ _ => (plain_addResult _ _ _ _).scanning) _ _

theorem working_runScanBody : Only (V := V) Working (runScanBody readInt) := by
  refine .bind (working_call rfl) fun _ => .exceptWhen ?_ fun _ => .bind (working_call rfl) fun _ =>
    .bind (plain_alertIfWanted _ _ _ _ _).scanning.working fun _ => .pure _
  refine .bind plain_serversToScan.scanning.working fun _ =>
    .bind plain_buildSharedCaches.scanning.working fun _ => .bind (.foldlM (fun _ _ =>
      .bind (scanning_scanSingleServer _ _).working fun _ => .pure _) _ _) fun _ => ?_
  exact .bind (working_call rfl) fun _ => .bind (working_call rfl) fun _ =>
    .bind (working_call rfl) fun _ => .bind (working_call rfl) fun _ => .pure _

end Parts

/-! ### The account -/

section Account

variable {V α : Type}

/-- The row that a call has opened. -/
def openedBy : JobEvent V → Option ℕ
  | ⟨.addJobRun _, r⟩ => r.toOption
  | _ => none

/-- The row that a call is to close; it may raise all the same. -/
def closingOf : JobEvent V → Option ℕ
  | ⟨.finishJobRun id _ _, _⟩ => some id
  | _ => none

def isAcquired : JobEvent V → Bool
  | ⟨.acquire, r⟩ => r.isOk
  | _ => false

def isRelease : JobEvent V → Bool
  | ⟨.release, _⟩ => true
  | _ => false

/-- The rows that are opened, in this order. -/
def opened (l : List (JobEvent V)) : List ℕ := l.filterMap openedBy

/-- The rows that `finish_job_run` is called for, in this order. -/
def closings (l : List (JobEvent V)) : List ℕ := l.filterMap closingOf

/-- How often the lock is taken, and how often its release is called. -/
def acquired (l : List (JobEvent V)) : ℕ := l.countP isAcquired

def releases (l : List (JobEvent V)) : ℕ := l.countP isRelease

/-- **The account** of a record from `s` on: the rows that nothing has tried to close yet, the locks
whose release has not been called, and the job that the lines of the log belong to. -/
structure Ledger (s : List (JobEvent V)) (rows : List ℕ) (locks : ℕ) (ctx : Option ℕ)
    (t l : List (JobEvent V)) : Prop where
  split : t = s ++ l
  opened_eq : opened l = closings l ++ rows
  acquired_eq : acquired l = releases l + locks
  context_eq : contextOf t = ctx

/-- The account of what has been added to a record. -/
def HasLedger (s : List (JobEvent V)) (rows : List ℕ) (locks : ℕ) (ctx : Option ℕ)
    (t : List (JobEvent V)) : Prop :=
  ∃ l, Ledger s rows locks ctx t l

variable {s t : List (JobEvent V)} {rows : List ℕ} {locks : ℕ} {ctx : Option ℕ}

theorem HasLedger.refl (s : List (JobEvent V)) : HasLedger s [] 0 (contextOf s) s :=
  ⟨[], by simp, rfl, rfl, rfl⟩

/-- One more call, and what it adds to the account. -/
theorem HasLedger.snoc {rows' : List ℕ} {locks' : ℕ} {ctx' : Option ℕ} {e : JobEvent V}
    (h : HasLedger s rows locks ctx t)
    (hrows : ∀ l : List (JobEvent V), opened l = closings l ++ rows →
      opened l ++ (openedBy e).toList = closings l ++ (closingOf e).toList ++ rows')
    (hlocks : (isAcquired e).toNat + locks = (isRelease e).toNat + locks')
    (hctx : contextOf (t ++ [e]) = ctx') : HasLedger s rows' locks' ctx' (t ++ [e]) := by
  obtain ⟨l, hl⟩ := h
  refine ⟨l ++ [e], by rw [hl.split, List.append_assoc], ?_, ?_, hctx⟩
  · have hopened : opened (l ++ [e]) = opened l ++ (openedBy e).toList := by
      rw [opened, List.filterMap_append]
      cases hopen : openedBy e <;> simp [hopen, opened]
    have hclosings : closings (l ++ [e]) = closings l ++ (closingOf e).toList := by
      rw [closings, List.filterMap_append]
      cases hclose : closingOf e <;> simp [hclose, closings]
    rw [hopened, hclosings]
    exact hrows l hl.opened_eq
  · have hacquired : acquired (l ++ [e]) = acquired l + (isAcquired e).toNat := by
      rw [acquired, List.countP_append]
      cases htaken : isAcquired e <;> simp [htaken, acquired]
    have hreleases : releases (l ++ [e]) = releases l + (isRelease e).toNat := by
      rw [releases, List.countP_append]
      cases hback : isRelease e <;> simp [hback, releases]
    rw [hacquired, hreleases, hl.acquired_eq]
    omega

theorem contextOf_snoc (t : List (JobEvent V)) (e : JobEvent V) :
    contextOf (t ++ [e]) = match e.1 with
      | .setContext runId => some runId
      | .resetContext token => token
      | _ => contextOf t := by
  rw [contextOf, List.foldl_append]
  rfl

/-- A call that is no bookkeeping changes nothing. -/
theorem HasLedger.quiet {e : JobEvent V} (he : e.1.books = false)
    (h : HasLedger s rows locks ctx t) : HasLedger s rows locks ctx (t ++ [e]) := by
  obtain ⟨q, r⟩ := e
  have hctx : contextOf (t ++ [⟨q, r⟩]) = ctx := by
    obtain ⟨l, hl⟩ := h
    rw [contextOf_snoc, ← hl.context_eq]
    cases q <;> first | rfl | cases he
  refine h.snoc (fun l hl => ?_) ?_ hctx
  · cases q <;> first | simpa [openedBy, closingOf] using hl | cases he
  · cases q <;> first | rfl | cases he

/-- A call of the lock or of `job_history` that has no effect on the account. -/
theorem HasLedger.failed {q : JobCall V} (e : PyError) (h : HasLedger s rows locks ctx t)
    (hq : q = .acquire ∨ ∃ jobType, q = .addJobRun jobType) :
    HasLedger s rows locks ctx (t ++ [⟨q, .error e⟩]) := by
  have hctx : contextOf (t ++ [⟨q, .error e⟩]) = ctx := by
    obtain ⟨l, hl⟩ := h
    rw [contextOf_snoc, ← hl.context_eq]
    obtain rfl | ⟨jobType, rfl⟩ := hq <;> rfl
  refine h.snoc (fun l hl => ?_) ?_ hctx
  · obtain rfl | ⟨jobType, rfl⟩ := hq <;> simpa [openedBy, closingOf, Except.toOption] using hl
  · obtain rfl | ⟨jobType, rfl⟩ := hq <;> rfl

theorem HasLedger.addJobRun (jobType : String) (id : ℕ) (h : HasLedger s [] locks ctx t) :
    HasLedger s [id] locks ctx (t ++ [⟨.addJobRun jobType, .ok id⟩]) := by
  obtain ⟨l, hl⟩ := h
  refine HasLedger.snoc ⟨l, hl⟩ (fun m hm => ?_) rfl ?_
  · simp [openedBy, closingOf, Except.toOption, hm]
  · rw [contextOf_snoc, ← hl.context_eq]

theorem HasLedger.finishJobRun {id : ℕ} {status message : String}
    {r : (JobCall.finishJobRun (V := V) id status message).Answer}
    (h : HasLedger s [id] locks ctx t) :
    HasLedger s [] locks ctx (t ++ [⟨.finishJobRun id status message, r⟩]) := by
  obtain ⟨l, hl⟩ := h
  refine HasLedger.snoc ⟨l, hl⟩ (fun m hm => ?_) rfl ?_
  · simp [openedBy, closingOf, hm]
  · rw [contextOf_snoc, ← hl.context_eq]

theorem HasLedger.setContext (id : ℕ) {r : (JobCall.setContext (V := V) id).Answer}
    (h : HasLedger s rows locks ctx t) :
    HasLedger s rows locks (some id) (t ++ [⟨.setContext id, r⟩]) := by
  refine h.snoc (fun m hm => ?_) rfl (contextOf_snoc ..)
  simp [openedBy, closingOf, hm]

theorem HasLedger.resetContext {token : Option ℕ}
    {r : (JobCall.resetContext (V := V) token).Answer} (h : HasLedger s rows locks ctx t) :
    HasLedger s rows locks token (t ++ [⟨.resetContext token, r⟩]) := by
  refine h.snoc (fun m hm => ?_) rfl (contextOf_snoc ..)
  simp [openedBy, closingOf, hm]

theorem HasLedger.acquire (h : HasLedger s rows locks ctx t) :
    HasLedger s rows (locks + 1) ctx (t ++ [⟨.acquire, .ok ()⟩]) := by
  obtain ⟨l, hl⟩ := h
  refine HasLedger.snoc ⟨l, hl⟩ (fun m hm => ?_) ?_ ?_
  · simp [openedBy, closingOf, hm]
  · show 1 + locks = 0 + (locks + 1)
    omega
  · rw [contextOf_snoc, ← hl.context_eq]

theorem HasLedger.release {r : (JobCall.release (V := V)).Answer}
    (h : HasLedger s rows (locks + 1) ctx t) :
    HasLedger s rows locks ctx (t ++ [⟨.release, r⟩]) := by
  obtain ⟨l, hl⟩ := h
  refine HasLedger.snoc ⟨l, hl⟩ (fun m hm => ?_) ?_ ?_
  · simp [openedBy, closingOf, hm]
  · show 0 + (locks + 1) = 1 + locks
    omega
  · rw [contextOf_snoc, ← hl.context_eq]

end Account

/-! ### The jobs -/

section Jobs

variable {V α β τ : Type} {pyRepr : String → String} {readInt : String → Option ℤ}

/-- A program keeps the account: it leaves no row to be closed and no lock to be released that was
not there before, and the log with its job. -/
def Balances (x : Job V α) : Prop :=
  ∀ s locks ctx t, HasLedger s [] locks ctx t →
    after (recording Answers) x (fun _ => HasLedger s [] locks ctx)
      (fun _ => HasLedger s [] locks ctx) t

theorem balances_of_working {x : Job V α} (h : Only Working x) : Balances x :=
  fun _ _ _ _ ht => after_only h (fun _ _ he => HasLedger.quiet he) ht

namespace Balances

theorem pure (a : α) : Balances (Pure.pure a : Job V α) := fun _ _ _ _ ht => ht

theorem throw (e : PyError) : Balances (throw e : Job V α) := fun _ _ _ _ ht => ht

theorem bind {x : Job V α} {f : α → Job V β} (hx : Balances x) (hf : ∀ a, Balances (f a)) :
    Balances (x >>= f) := by
  intro s locks ctx t ht
  rw [Prog.after_bind]
  exact Prog.after_mono (fun a u hu => hf a s locks ctx u hu) (fun _ _ => id) (hx s locks ctx t ht)

theorem tryCatch {x : Job V α} {h : PyError → Job V α} (hx : Balances x)
    (hh : ∀ e, Balances (h e)) :
    Balances (tryCatch x h) := by
  intro s locks ctx t ht
  rw [Prog.after_tryCatch]
  exact Prog.after_mono (fun _ _ => id) (fun e u hu => hh e s locks ctx u hu) (hx s locks ctx t ht)

theorem ite {c : Prop} [Decidable c] {x y : Job V α} (hx : Balances x) (hy : Balances y) :
    Balances (if c then x else y) := by
  split_ifs
  · exact hx
  · exact hy

theorem exceptWhen {caught : PyError → Bool} {x : Job V α} {h : PyError → Job V α}
    (hx : Balances x) (hh : ∀ e, Balances (h e)) : Balances (exceptWhen caught x h) :=
  hx.tryCatch fun e => .ite (hh e) (.throw e)

theorem finallyDo {x : Job V α} {f : Job V Unit} (hx : Balances x) (hf : Balances f) :
    Balances (Prog.finallyDo x f) := by
  intro s locks ctx t ht
  rw [Prog.after_finallyDo]
  exact Prog.after_mono (fun _ u hu => hf s locks ctx u hu) (fun _ u hu => hf s locks ctx u hu)
    (hx s locks ctx t ht)

theorem foldlM {f : β → τ → Job V β} (hf : ∀ b a, Balances (f b a)) (l : List τ) (b : β) :
    Balances (l.foldlM f b) := by
  induction l generalizing b with
  | nil => exact pure b
  | cons a l ih => exact (hf b a).bind ih

end Balances

/-- Closing a row: the log goes back to its job, and `finish_job_run` is called. -/
theorem closeRow_balances {s t : List (JobEvent V)} {locks id : ℕ} {ctx ctx' : Option ℕ}
    (status message : String) (h : HasLedger s [id] locks ctx' t) :
    after (recording Answers)
      (do
        call (.resetContext ctx)
        call (.finishJobRun id status message))
      (fun _ => HasLedger s [] locks ctx) (fun _ => HasLedger s [] locks ctx) t := by
  rw [Prog.after_bind, after_call]
  refine ⟨fun _ _ => ?_, fun e he => (by cases he)⟩
  rw [after_call]
  exact ⟨fun _ _ => h.resetContext.finishJobRun, fun _ _ => h.resetContext.finishJobRun⟩

/-- **The row of a job**: `finish_job_run` is called for it, whatever becomes of the work. -/
theorem jobRow_balances {jobType : String} {x : Job V (String × String)} {caught : PyError → Bool}
    {handle : PyError → Job V String} (hx : Only Working x)
    (hhandle : ∀ e, Only Working (handle e)) :
    Balances (jobRow jobType x caught handle) := by
  intro s locks ctx t ht
  have hwork : ∀ {γ : Type} {y : Job V γ} {runId u}, Only Working y →
      HasLedger s [runId] locks (some runId) u →
      after (recording Answers) y (fun _ => HasLedger s [runId] locks (some runId))
        (fun _ => HasLedger s [runId] locks (some runId)) u :=
    fun hy hu => after_only hy (fun _ _ he => HasLedger.quiet he) hu
  rw [jobRow, Prog.after_bind, after_call]
  refine ⟨fun runId _ => ?_, fun e _ => ht.failed e (.inr ⟨jobType, rfl⟩)⟩
  rw [Prog.after_bind, after_call]
  refine ⟨fun token htoken => ?_, fun e he => (by cases he)⟩
  -- the token stands for the job that the log had before
  obtain rfl : token = ctx := by
    obtain ⟨l, hl⟩ := ht.addJobRun jobType runId
    exact (Except.ok.inj htoken).trans hl.context_eq
  have hopen := (ht.addJobRun jobType runId).setContext runId (r := .ok token)
  rw [Prog.after_bind, Prog.after_attempt]
  refine Prog.after_mono (fun result u hu => ?_) (fun e u hu => ?_) (hwork hx hopen)
  · exact closeRow_balances _ _ hu
  · show after _ (if caught e then _ else _) _ _ u
    rw [Prog.after_ite]
    refine ⟨fun _ => ?_, fun _ => ?_⟩
    · rw [Prog.after_bind, Prog.after_attempt]
      refine Prog.after_mono (fun msg v hv => closeRow_balances _ _ hv) (fun e' v hv => ?_)
        (hwork (hhandle e) hu)
      show after _ (_ >>= _) _ _ v
      rw [Prog.after_bind]
      exact Prog.after_mono (fun _ _ => id) (fun _ _ => id) (closeRow_balances _ _ hv)
    · rw [Prog.after_bind]
      exact Prog.after_mono (fun _ _ => id) (fun _ _ => id) (closeRow_balances _ _ hu)

/-- **The lock**: its release is called as soon as the body has ended. -/
theorem withScanLock_balances {x : Job V Unit} (hx : Balances x) : Balances (withScanLock x) := by
  intro s locks ctx t ht
  rw [withScanLock, Prog.after_bind, after_call]
  refine ⟨fun _ _ => ?_, fun e _ => ht.failed e (.inl rfl)⟩
  rw [Prog.after_finallyDo]
  have hrelease : ∀ u, HasLedger s [] (locks + 1) ctx u →
      after (recording Answers) (call .release) (fun _ => HasLedger s [] locks ctx)
        (fun _ => HasLedger s [] locks ctx) u := by
    intro u hu
    rw [after_call]
    exact ⟨fun _ _ => hu.release, fun _ _ => hu.release⟩
  exact Prog.after_mono (fun _ => hrelease) (fun _ => hrelease) (hx s _ ctx _ ht.acquire)

theorem unlessLocked_balances {body skipped : Job V Unit} (hbody : Balances body)
    (hskipped : Only Working skipped) : Balances (unlessLocked body skipped) :=
  (balances_of_working (working_call rfl)).bind fun taken => by
    cases taken with
    | true => exact balances_of_working (working_call rfl)
    | false => exact (withScanLock_balances hbody).exceptWhen fun _ => balances_of_working hskipped

theorem libraryRow_balances (libraryId : String) (caches : Option (Option V × V × V)) :
    Balances (libraryRow pyRepr libraryId caches) :=
  jobRow_balances (.bind (working_doScanOneLibrary _ _) fun _ => .pure _) fun _ =>
    .bind (working_call rfl) fun _ => .pure _

/-- **The account of a job is settled**, however it ends. -/
theorem run_balances (job : ScanJob) : Balances (job.run (V := V) pyRepr readInt) := by
  have hpost : Balances (V := V) (do
      call .syncCollection
      call .sendPending) :=
    (balances_of_working (working_call rfl)).bind fun _ => balances_of_working (working_call rfl)
  cases job with
  | full =>
      exact unlessLocked_balances (jobRow_balances (working_runScanBody.waitFor) fun _ =>
        .bind (working_call rfl) fun _ => .pure _) (working_call rfl)
  | library id =>
      exact unlessLocked_balances ((libraryRow_balances id none).bind fun _ => hpost) (.pure _)
  | libraries ids =>
      refine unlessLocked_balances (.finallyDo (.exceptWhen (.bind ?_ fun caches => ?_) fun _ => ?_)
        hpost) (.pure _)
      · exact balances_of_working plain_buildSharedCaches.scanning.working
      · exact .foldlM (fun _ id => libraryRow_balances id _) ids ()
      · exact balances_of_working (working_call rfl)

end Jobs

end Hygie
