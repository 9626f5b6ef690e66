/-
**What a scan is started with, and what its row says.**

A scan that is started on an empty user list takes every title for never watched.  So whatever
fails around it, a library is scanned only with users that its server has just named, at least one,
with the caches of Radarr and Sonarr, and only if it is enabled and its server is not switched off.
And the row of a job reports what the job has been told: a success names the sum of what its scans
have returned, and a row that is neither a success nor an error has started no scan.  It does not
report more: a scan queues its titles one by one, and one that raises after some of them has
returned nothing, so that they are missing in the sum.

Main definitions:

* `returnedIn`, `scansIn` — what the scans on record have returned, and how many there are;
* `ScanReady` — what is on record when a library is scanned;
* `RowTrue` — what is on record when `finish_job_run` is called.

Main results:

* `doScanOneLibrary_reports`, `scanSingleServer_reports`, `runScanBody_reports` — the work;
* `scanReady_of_run` — **no library is scanned blindly**;
* `rows_of_run` — **every row is to be closed, once, and reports what the scans have returned**.
-/

import Hygie.JobLedger

set_option relaxedAutoImplicit false
set_option autoImplicit false

namespace Hygie

open Prog (after recording Reaches Causal)

section Reports

variable {V α β τ : Type}

/-! ### What is on record -/

/-- What gathered scans have returned.  One that has raised has returned nothing, whatever it had
queued before. -/
def returnedOf (results : List (Except PyError ℕ)) : ℕ :=
  (results.map fun r => r.toOption.getD 0).sum

/-- How many titles a call says that it has queued. -/
def returnedBy : JobEvent V → ℕ
  | ⟨.scanLibrary _, r⟩ => r.toOption.getD 0
  | ⟨.scanPlexLibrary .., r⟩ => r.toOption.getD 0
  | ⟨.gatherScans .., r⟩ => returnedOf (r.toOption.getD [])
  | _ => 0

/-- How many titles the calls on record say that they have queued. -/
def returnedIn (l : List (JobEvent V)) : ℕ := (l.map returnedBy).sum

/-- How many scans are on record. -/
def scansIn (l : List (JobEvent V)) : ℕ := l.countP fun e => e.1.scans

/-- The server of a scan is listed and not switched off; or all are, and it is the legacy server; or
it is not listed. -/
def ServerOpen (servers : List ScanServer) (serverId : String) : Prop :=
  (∃ s ∈ servers, (s.id.getD "0" = serverId ∨ s.id.getD "None" = serverId) ∧
      s.enabled ≠ some false) ∨
    ((∀ s ∈ servers, s.enabled = some false) ∧ serverId = "0") ∨
      ∀ s ∈ servers, s.id.getD "None" ≠ serverId

/-- **What is on record when a library is scanned.** -/
structure ScanReady (tr : List (JobEvent V)) (args : ScanArgs V) : Prop where
  users : ∃ us, ⟨.users args.serverId, .ok us⟩ ∈ tr ∧ us.mapM id = some args.userIds
  someUser : args.userIds ≠ []
  radarr : ⟨.buildRadarr, .ok args.radarrCache⟩ ∈ tr
  sonarr : ⟨.buildSonarr, .ok args.sonarrCache⟩ ∈ tr
  queuedIgnored : ⟨.queuedAndIgnored, .ok args.queuedIgnored⟩ ∈ tr
  seerr : ∀ cache, args.seerrCache = some cache → ⟨.buildSeerr, .ok cache⟩ ∈ tr
  activity : ∀ log, args.activity = some log → ⟨.playActivity args.serverId 730, .ok log⟩ ∈ tr
  library : (∃ libs, ⟨.enabledLibraries args.serverId, .ok libs⟩ ∈ tr ∧ args.library ∈ libs) ∨
    ∃ id, ⟨.libraryById id, .ok (some args.library)⟩ ∈ tr ∧
      args.serverId = (truthyText args.library.serverId).getD "0"
  server : ∃ servers, ⟨.mediaServers, .ok servers⟩ ∈ tr ∧ ServerOpen servers args.serverId

/-- **What is on record when `finish_job_run` is called**: the opening of the row, no other opening
since then, and what the row reports. -/
def RowTrue (tr : List (JobEvent V)) (id : ℕ) (status message : String) : Prop :=
  ∃ p jobType l, tr = p ++ ⟨.addJobRun jobType, .ok id⟩ :: l ∧ opened l = [] ∧
    (status = "success" → message = toString (returnedIn l) ++ " queued") ∧
    (status ≠ "success" → status ≠ "error" → ∀ e ∈ l, e.1.scans = false)

/-- What a call demands of the record. -/
def CallJustified (tr : List (JobEvent V)) (e : JobEvent V) : Prop :=
  match e.1 with
  | .scanLibrary args => ScanReady tr args
  | .gatherScans argss _ => ∀ args ∈ argss, ScanReady tr args
  | .finishJobRun id status message => RowTrue tr id status message
  | _ => True

/-! ### What programs add to a record -/

variable {s t u v : List (JobEvent V)}

/-- From one record on, every call is justified. -/
abbrev Justifies (t u : List (JobEvent V)) : Prop := Causal CallJustified t u

/-- From one record on, every call is justified and none is a scan. -/
structure Idle (t u : List (JobEvent V)) : Prop where
  justifies : Justifies t u
  returned_eq : returnedIn u = returnedIn t
  scans_eq : scansIn u = scansIn t

/-- From one record on, every call is justified and the status is a true report. -/
structure Report (t u : List (JobEvent V)) (status message : String) : Prop where
  justifies : Justifies t u
  success : status = "success" →
    ∃ n, returnedIn u = returnedIn t + n ∧ message = toString n ++ " queued"
  noScan : status ≠ "success" → status ≠ "error" → scansIn u = scansIn t

theorem returnedIn_snoc (t : List (JobEvent V)) (e : JobEvent V) :
    returnedIn (t ++ [e]) = returnedIn t + returnedBy e := by
  simp [returnedIn]

theorem scansIn_snoc (t : List (JobEvent V)) (e : JobEvent V) :
    scansIn (t ++ [e]) = scansIn t + e.1.scans.toNat := by
  rw [scansIn, List.countP_append]
  cases hscan : e.1.scans <;> simp [hscan, scansIn]

theorem returnedBy_of_not_scans {e : JobEvent V} (h : e.1.scans = false) : returnedBy e = 0 := by
  obtain ⟨q, r⟩ := e
  cases q <;> first | rfl | cases h

/-- No scan and no bookkeeping. -/
abbrev Quiet (q : JobCall V) : Prop := q.books = false ∧ q.scans = false

theorem quiet_of_plain (q : JobCall V) (h : Plain q) : Quiet q := by
  simp only [Plain, JobCall.plain, Bool.and_eq_true, Bool.not_eq_true'] at h
  exact h.1

theorem callJustified_of_quiet {e : JobEvent V} (h : Quiet e.1) : CallJustified t e := by
  obtain ⟨q, r⟩ := e
  cases q <;> first | trivial | exact Bool.noConfusion h.1 | exact Bool.noConfusion h.2

theorem Idle.refl (t : List (JobEvent V)) : Idle t t := ⟨.refl, rfl, rfl⟩

theorem Idle.snoc {e : JobEvent V} (h : Idle t u) (he : Quiet e.1) : Idle t (u ++ [e]) := by
  refine ⟨h.justifies.snoc (callJustified_of_quiet he), ?_, ?_⟩
  · rw [returnedIn_snoc, returnedBy_of_not_scans he.2, h.returned_eq, add_zero]
  · rw [scansIn_snoc, he.2, h.scans_eq, Bool.toNat_false, add_zero]

theorem Idle.trans (h : Idle t u) (h' : Idle u v) : Idle t v :=
  ⟨h.justifies.trans h'.justifies, h'.returned_eq.trans h.returned_eq, h'.scans_eq.trans h.scans_eq⟩

theorem Idle.report (h : Idle t u) {status message : String} (h' : Report u v status message) :
    Report t v status message := by
  refine ⟨h.justifies.trans h'.justifies, fun hs => ?_, fun hs he => ?_⟩
  · rw [← h.returned_eq]
    exact h'.success hs
  · rw [← h.scans_eq]
    exact h'.noScan hs he

/-- Programs of plain calls. -/
theorem idle_of_plain {x : Job V α} (h : Only Plain x) :
    after (recording Answers) x (fun _ => Idle t) (fun _ => Idle t) t :=
  after_only h (fun _ _ he hu => hu.snoc (quiet_of_plain _ he)) (.refl t)

/-! ### Values of plain programs -/

/-- A program of plain calls that returns what `R` says. -/
def Yields (t : List (JobEvent V)) (x : Job V α) (R : α → List (JobEvent V) → Prop) : Prop :=
  after (recording Answers) x (fun a u => Idle t u ∧ R a u) (fun _ => Idle t) t

theorem yields_of_plain {x : Job V α} {R : α → List (JobEvent V) → Prop} (h : Only Plain x)
    (hR : after (recording Answers) x R (fun _ _ => True) t) : Yields t x R :=
  Prog.after_mono (fun _ _ => id) (fun _ _ => And.left) (Prog.after_and (idle_of_plain h) hR)

theorem yields_idle {x : Job V α} (h : Only Plain x) : Yields t x fun _ _ => True :=
  yields_of_plain h (Prog.after_mono (fun _ _ _ => trivial) (fun _ _ _ => trivial)
    (idle_of_plain h))

/-- A call that is no scan returns what is on record as its answer. -/
theorem yields_call {q : JobCall V} (hbooks : q.books = false) (hscans : q.scans = false) :
    Yields t (call q) fun b u => ⟨q, .ok b⟩ ∈ u := by
  have h : Quiet q := ⟨hbooks, hscans⟩
  rw [Yields, after_call]
  exact ⟨fun b _ => ⟨(Idle.refl t).snoc h, by simp⟩, fun e _ => (Idle.refl t).snoc h⟩

theorem yields_buildSeerrCache (warning : PyError → LogText) :
    Yields t (buildSeerrCache warning) fun cache u =>
      ∀ c, cache = some c → ⟨.buildSeerr, .ok c⟩ ∈ u := by
  refine yields_of_plain (plain_buildSeerrCache warning) ?_
  rw [buildSeerrCache, exceptWhen, Prog.after_tryCatch, Prog.after_bind, after_call]
  refine ⟨fun c _ => ?_, fun e _ => ?_⟩
  · rw [Prog.after_pure]
    rintro _ ⟨⟩
    simp
  · rw [Prog.after_ite, Prog.after_throw]
    refine ⟨fun _ => ?_, fun _ => trivial⟩
    rw [Prog.after_bind]
    refine Prog.after_mono (fun _ _ _ => ?_) (fun _ _ => id) (after_only (plain_addLog _ _ _)
      (fun _ _ _ => id) trivial)
    rw [Prog.after_bind]
    refine Prog.after_mono (fun _ _ _ => ?_) (fun _ _ => id) (after_only
      (plain_alertIfWanted _ _ _ _ _) (fun _ _ _ => id) trivial)
    rw [Prog.after_pure]
    rintro _ ⟨⟩

theorem yields_userIdsOf (users : List (Option String)) :
    Yields t (userIdsOf users) fun ids _ => users.mapM id = some ids := by
  refine yields_of_plain (plain_userIdsOf users) ?_
  unfold userIdsOf
  cases hids : users.mapM id with
  | none => trivial
  | some ids => exact (Prog.after_pure _).2 rfl

theorem yields_activityLog (serverId : String) :
    Yields t (activityLog serverId) fun log u =>
      ∀ a, log = some a → ⟨.playActivity serverId 730, .ok a⟩ ∈ u := by
  refine yields_of_plain (plain_activityLog serverId) ?_
  rw [activityLog, exceptWhen, Prog.after_tryCatch, Prog.after_bind, after_call]
  refine ⟨fun c _ => ?_, fun e _ => ?_⟩
  · rw [Prog.after_pure]
    rintro _ ⟨⟩
    simp
  · rw [Prog.after_ite, Prog.after_throw, Prog.after_pure]
    exact ⟨fun _ => nofun, fun _ => trivial⟩

/-- The caches that a caller hands on. -/
structure CachesReady (t : List (JobEvent V)) (caches : Option V × V × V) : Prop where
  seerr : ∀ c, caches.1 = some c → ⟨.buildSeerr, .ok c⟩ ∈ t
  radarr : ⟨.buildRadarr, .ok caches.2.1⟩ ∈ t
  sonarr : ⟨.buildSonarr, .ok caches.2.2⟩ ∈ t

theorem CachesReady.mono {caches : Option V × V × V} (h : CachesReady t caches)
    (htu : Justifies t u) : CachesReady u caches :=
  ⟨fun c hc => htu.mem (h.seerr c hc), htu.mem h.radarr, htu.mem h.sonarr⟩

/-! ### Sequences -/

/-- A plain program first, and then one whose end is measured from where it has started. -/
theorem after_seq {x : Job V α} {f : α → Job V β} {R : α → List (JobEvent V) → Prop}
    {S : List (JobEvent V) → β → List (JobEvent V) → Prop}
    (hS : ∀ {t u b v}, Idle t u → S u b v → S t b v) (hx : Yields t x R)
    (hf : ∀ a u, Idle t u → R a u →
      after (recording Answers) (f a) (S u) (fun _ => Justifies u) u) :
    after (recording Answers) (x >>= f) (S t) (fun _ => Justifies t) t := by
  rw [Prog.after_bind]
  refine Prog.after_mono (fun a u hu => ?_) (fun _ _ hu => hu.justifies) hx
  exact Prog.after_mono (fun b v hv => hS hu.1 hv)
    (fun _ _ hv => hu.1.justifies.trans hv) (hf a u hu.1 hu.2)

theorem Yields.bind {x : Job V α} {f : α → Job V β} {R : α → List (JobEvent V) → Prop}
    {S : β → List (JobEvent V) → Prop} (hx : Yields t x R)
    (hf : ∀ a u, Idle t u → R a u → Yields u (f a) S) : Yields t (x >>= f) S := by
  rw [Yields, Prog.after_bind]
  refine Prog.after_mono (fun a u hu => ?_) (fun _ _ => id) hx
  exact Prog.after_mono (fun b v hv => ⟨hu.1.trans hv.1, hv.2⟩) (fun _ _ hv => hu.1.trans hv)
    (hf a u hu.1 hu.2)

theorem yields_buildSharedCaches :
    Yields t (buildSharedCaches (V := V)) fun caches u => CachesReady u caches := by
  refine (yields_buildSeerrCache _).bind fun seerr u _ hseerr =>
    .bind (yields_call rfl rfl) fun radarr v hv hradarr =>
      .bind (yields_call rfl rfl) fun sonarr w hw hsonarr => ?_
  refine ⟨.refl w, fun c hc => ?_, hw.justifies.mem hradarr, hsonarr⟩
  exact hw.justifies.mem (hv.justifies.mem (hseerr c hc))

/-- The cache that a caller has passed on is on record, and so is a new one. -/
theorem yields_orBuild {q : JobCall V} {cache : Option q.Body} (hq : Quiet q)
    (hcache : ∀ c, cache = some c → ⟨q, .ok c⟩ ∈ t) :
    Yields t (orBuild cache (call q)) fun c u => ⟨q, .ok c⟩ ∈ u := by
  cases cache with
  | none => exact yields_call hq.1 hq.2
  | some c => exact ⟨.refl t, hcache c rfl⟩

/-! ### Counting -/

/-- From one record on, every call is justified and the scans have returned `n` titles. -/
structure Adds (t : List (JobEvent V)) (n : ℕ) (u : List (JobEvent V)) : Prop where
  justifies : Justifies t u
  returned_eq : returnedIn u = returnedIn t + n

theorem Idle.adds {n : ℕ} (h : Idle t u) (h' : Adds u n v) : Adds t n v :=
  ⟨h.justifies.trans h'.justifies, by rw [h'.returned_eq, h.returned_eq]⟩

theorem Idle.addsZero (h : Idle t u) : Adds t 0 u := ⟨h.justifies, h.returned_eq⟩

theorem Adds.idle {n : ℕ} (h : Adds t n u) (h' : Idle u v) : Adds t n v :=
  ⟨h.justifies.trans h'.justifies, by rw [h'.returned_eq, h.returned_eq]⟩

theorem Adds.trans {m n : ℕ} (h : Adds t m u) (h' : Adds u n v) : Adds t (m + n) v :=
  ⟨h.justifies.trans h'.justifies, by rw [h'.returned_eq, h.returned_eq, add_assoc]⟩

/-- A plain program that follows what has been returned, and then one whose end is measured from
where the count has started. -/
theorem adds_then {x : Job V α} {f : α → Job V β} {R : β → List (JobEvent V) → Prop} {n : ℕ}
    (hu : Adds t n u) (hx : Only Plain x)
    (hf : ∀ a v, Adds t n v → after (recording Answers) (f a) R (fun _ => Justifies t) v) :
    after (recording Answers) (x >>= f) R (fun _ => Justifies t) u := by
  rw [Prog.after_bind]
  exact Prog.after_mono (fun a v hv => hf a v (hu.idle hv))
    (fun _ _ hv => hu.justifies.trans hv.justifies) (idle_of_plain hx)

/-! ### One library -/

/-- A scan that is justified counts for what it returns. -/
theorem after_scan {q : JobCall V} {R : q.Body → List (JobEvent V) → Prop}
    (hq : ∀ r, CallJustified t ⟨q, r⟩)
    (hR : ∀ b, Adds t (returnedBy ⟨q, .ok b⟩) (t ++ [⟨q, .ok b⟩]) → R b (t ++ [⟨q, .ok b⟩])) :
    after (recording Answers) (call q) R (fun _ => Justifies t) t := by
  rw [after_call]
  exact ⟨fun b _ => hR b ⟨.snoc .refl (hq _), returnedIn_snoc t _⟩, fun e _ => .snoc .refl (hq _)⟩

/-- The sum of what has been returned is a true report of a success. -/
theorem Adds.report {n : ℕ} (h : Adds t n u) : Report t u "success" (toString n ++ " queued") :=
  ⟨h.justifies, fun _ => ⟨n, h.returned_eq, rfl⟩, fun hs => absurd rfl hs⟩

/-- The end of a scan of one library: the line in the log, and the report. -/
theorem after_done {n : ℕ} (hu : Adds t n u) :
    after (recording Answers)
      (do
        addLog "INFO" (.lm "scan.done" [("n", toString n)]) "job"
        pure ("success", toString n ++ " queued", n))
      (fun res v => Report t v res.1 res.2.1) (fun _ => Justifies t) u :=
  adds_then hu (plain_addLog _ _ _) fun _ _ hv => (Prog.after_pure _).2 hv.report

theorem Idle.reportOf {status message : String} (h : Idle t u) (hstatus : status ≠ "success") :
    Report t u status message :=
  ⟨h.justifies, fun hs => absurd hs hstatus, fun _ _ => h.scans_eq⟩

/-- A plain program, and a status that is no success. -/
theorem after_plain_report {x : Job V Unit} {status message : String} (hx : Only Plain x)
    (hstatus : status ≠ "success") :
    after (recording Answers)
      (do
        x
        pure (status, message, 0))
      (fun res v => Report t v res.1 res.2.1) (fun _ => Justifies t) t := by
  rw [Prog.after_bind]
  exact Prog.after_mono (fun _ _ hu => hu.reportOf hstatus) (fun _ _ hu => hu.justifies)
    (idle_of_plain hx)

/-- A plain program, and then a report of what comes after it. -/
theorem report_seq {x : Job V α} {f : α → Job V (String × String × ℕ)}
    {R : α → List (JobEvent V) → Prop} (hx : Yields t x R)
    (hf : ∀ a u, Idle t u → R a u → after (recording Answers) (f a)
      (fun res v => Report u v res.1 res.2.1) (fun _ => Justifies u) u) :
    after (recording Answers) (x >>= f) (fun res v => Report t v res.1 res.2.1)
      (fun _ => Justifies t) t :=
  after_seq (S := fun t (res : String × String × ℕ) v => Report t v res.1 res.2.1)
    (fun h h' => h.report h') hx hf

/-- **One library of Emby or Jellyfin**: it is scanned with what is on record, and the report is
true. -/
theorem scanEmbyLibrary_reports {lib : ScanLibrary} {serverId : String} (serverName : String)
    {seerr radarr sonarr : Option V}
    (hseerr : ∀ c, seerr = some c → ⟨.buildSeerr, .ok c⟩ ∈ t)
    (hradarr : ∀ c, radarr = some c → ⟨.buildRadarr, .ok c⟩ ∈ t)
    (hsonarr : ∀ c, sonarr = some c → ⟨.buildSonarr, .ok c⟩ ∈ t)
    (hlib : ∃ id, ⟨.libraryById id, .ok (some lib)⟩ ∈ t ∧
      serverId = (truthyText lib.serverId).getD "0")
    (hserver : ∃ servers, ⟨.mediaServers, .ok servers⟩ ∈ t ∧ ServerOpen servers serverId) :
    after (recording Answers) (scanEmbyLibrary lib serverId serverName seerr radarr sonarr)
      (fun res u => Report t u res.1 res.2.1) (fun _ => Justifies t) t := by
  rw [scanEmbyLibrary]
  refine report_seq (yields_call rfl rfl) fun users t₁ h₁ husers => ?_
  refine report_seq (yields_userIdsOf users) fun ids t₂ h₂ hids => ?_
  rw [Prog.after_ite]
  refine ⟨fun _ => after_plain_report (plain_abortScanNoUsers _ _) (by decide), fun hsome => ?_⟩
  have j₂ := h₁.justifies.trans h₂.justifies
  refine report_seq (yields_orBuild (q := .buildRadarr) ⟨rfl, rfl⟩ fun c hc =>
    j₂.mem (hradarr c hc)) fun radarrCache t₃ h₃ hr => ?_
  have j₃ := j₂.trans h₃.justifies
  refine report_seq (yields_orBuild (q := .buildSonarr) ⟨rfl, rfl⟩ fun c hc =>
    j₃.mem (hsonarr c hc)) fun sonarrCache t₄ h₄ hs => ?_
  refine report_seq (yields_call rfl rfl) fun queuedIgnored t₅ h₅ hq => ?_
  refine report_seq (yields_activityLog serverId) fun activity t₆ h₆ ha => ?_
  have j₅₆ := h₆.justifies
  have j₄₆ := h₅.justifies.trans j₅₆
  have j₃₆ := h₄.justifies.trans j₄₆
  have j := j₃.trans j₃₆
  obtain ⟨id, hlibrary, hserverId⟩ := hlib
  obtain ⟨servers, hservers, hopen⟩ := hserver
  have hready : ScanReady t₆ ⟨lib, ids, serverId, serverName, radarrCache, sonarrCache, seerr,
      queuedIgnored, activity⟩ :=
    { users := ⟨users, (h₂.justifies.trans (h₃.justifies.trans j₃₆)).mem husers, hids⟩
      someUser := hsome
      radarr := j₃₆.mem hr
      sonarr := j₄₆.mem hs
      queuedIgnored := j₅₆.mem hq
      seerr := fun c hc => j.mem (hseerr c hc)
      activity := ha
      library := .inr ⟨id, j.mem hlibrary, hserverId⟩
      server := ⟨servers, j.mem hservers, hopen⟩ }
  rw [Prog.after_bind]
  exact after_scan (fun _ => hready) fun _ hn => after_done hn

/-- **One library**: the report is true. -/
theorem doScanOneLibrary_reports {pyRepr : String → String} (libraryId : String)
    {caches : Option (Option V × V × V)} (hcaches : ∀ c, caches = some c → CachesReady t c) :
    after (recording Answers) (doScanOneLibrary pyRepr libraryId caches)
      (fun res u => Report t u res.1 res.2.1) (fun _ => Justifies t) t := by
  rw [doScanOneLibrary]
  refine report_seq (yields_call rfl rfl) fun found t₁ h₁ hfound => ?_
  cases found with
  | none => exact after_plain_report (plain_addLog _ _ _) (by decide)
  | some lib =>
      show after _ (scanFound pyRepr libraryId lib caches) _ _ t₁
      rw [scanFound]
      refine report_seq (yields_call rfl rfl) fun servers t₂ h₂ hservers => ?_
      rw [Prog.after_ite]
      refine ⟨fun _ => after_plain_report (plain_addLog _ _ _) (by decide), fun henabled => ?_⟩
      refine report_seq (yields_idle (plain_addLog _ _ _)) fun _ t₃ h₃ _ => ?_
      have j₁ := h₂.justifies.trans h₃.justifies
      have j₃ := h₁.justifies.trans j₁
      have hseerr : Yields t₃ (orBuild (caches.map (·.1)) (buildSeerrCache fun e =>
          .text ("Seerr inaccessible : " ++ e.text))) fun cache u =>
            ∀ c, cache = some c → ⟨.buildSeerr, .ok c⟩ ∈ u := by
        cases caches with
        | none => exact yields_buildSeerrCache _
        | some caches => exact ⟨.refl t₃, ((hcaches caches rfl).mono j₃).seerr⟩
      refine report_seq hseerr fun seerr t₄ h₄ hs => ?_
      have j₄ := j₃.trans h₄.justifies
      rw [Prog.after_ite]
      refine ⟨fun _ => ?_, fun _ => ?_⟩
      · rw [Prog.after_bind]
        exact after_scan (fun _ => trivial) fun _ hn => after_done hn
      · refine scanEmbyLibrary_reports _ hs ?_ ?_ ⟨libraryId, ?_, rfl⟩ ⟨servers, ?_, ?_⟩
        · rintro c hc
          obtain ⟨caches, hsome, rfl⟩ := Option.map_eq_some_iff.1 hc
          exact ((hcaches caches hsome).mono j₄).radarr
        · rintro c hc
          obtain ⟨caches, hsome, rfl⟩ := Option.map_eq_some_iff.1 hc
          exact ((hcaches caches hsome).mono j₄).sonarr
        · exact (j₁.trans h₄.justifies).mem hfound
        · exact (h₃.justifies.trans h₄.justifies).mem hservers
        · -- the first server with the identifier, or none
          cases hserver : servers.find? fun s =>
              s.id.getD "None" == (truthyText lib.serverId).getD "0" with
          | none =>
              refine .inr (.inr fun s hmem => ?_)
              simpa using List.find?_eq_none.1 hserver s hmem
          | some server =>
              refine .inl ⟨server, List.mem_of_find?_eq_some hserver, .inr ?_, ?_⟩
              · simpa using List.find?_some hserver
              · simpa [hserver] using henabled

/-! ### One server -/

/-- A plain program, and then a count of what comes after it. -/
theorem adds_seq {x : Job V α} {f : α → Job V ℕ} {R : α → List (JobEvent V) → Prop}
    (hx : Yields t x R)
    (hf : ∀ a u, Idle t u → R a u →
      after (recording Answers) (f a) (Adds u) (fun _ => Justifies u) u) :
    after (recording Answers) (x >>= f) (Adds t) (fun _ => Justifies t) t :=
  after_seq (S := fun t n v => Adds t n v) (fun h h' => h.adds h') hx hf

/-- A plain program that adds nothing. -/
theorem adds_zero {x : Job V α} (hx : Only Plain x) :
    after (recording Answers)
      (do
        let _ ← x
        pure 0)
      (Adds t) (fun _ => Justifies t) t :=
  adds_then (Idle.refl t).addsZero hx fun _ _ hv => (Prog.after_pure _).2 hv

/-- One library of a Plex server. -/
theorem scanOnePlex_adds (server : ScanServer) (seerrCache : Option V) {n : ℕ} (lib : ScanLibrary)
    (h : Adds t n u) :
    after (recording Answers) (scanOnePlex server seerrCache n lib) (Adds t)
      (fun _ => Justifies t) u := by
  rw [scanOnePlex, exceptWhen, Prog.after_tryCatch, Prog.after_bind, after_call]
  refine ⟨fun m _ => ?_, fun e _ => ?_⟩
  · have hadded : Adds u m (u ++ [⟨.scanPlexLibrary server lib seerrCache, .ok m⟩]) :=
      ⟨.snoc .refl trivial, returnedIn_snoc u _⟩
    exact (Prog.after_pure _).2 (h.trans hadded)
  · have hfailed : Adds t n (u ++ [⟨.scanPlexLibrary server lib seerrCache, .error e⟩]) := by
      have hnothing : Adds u 0 (u ++ [⟨.scanPlexLibrary server lib seerrCache, .error e⟩]) :=
        ⟨.snoc .refl trivial, returnedIn_snoc u _⟩
      exact h.trans hnothing
    rw [Prog.after_ite, Prog.after_throw]
    refine ⟨fun _ => ?_, fun _ => hfailed.justifies⟩
    exact adds_then hfailed (plain_addLog _ _ _) fun _ _ hv => (Prog.after_pure _).2 hv

theorem addedOf_snoc (results : List (Except PyError ℕ)) (r : Except PyError ℕ) :
    returnedOf (results ++ [r]) = returnedOf results + r.toOption.getD 0 := by
  simp [returnedOf]

/-- One result of the gathered scans counts, unless it is a failure. -/
theorem addResult_idle (serverId serverName : String) (n : ℕ) (r : Except PyError ℕ) :
    after (recording Answers) (addResult (V := V) serverId serverName n r)
      (fun m u => Idle t u ∧ m = n + r.toOption.getD 0) (fun _ => Idle t) t := by
  refine yields_of_plain (plain_addResult serverId serverName n r) ?_
  have hany : ∀ {y : Job V Unit} {u}, after (recording Answers) y (fun _ _ => True)
      (fun _ _ => True) u :=
    fun {y u} => Prog.after_of_always (Prog.Always.trivial y) (fun _ _ _ _ _ _ _ => trivial) trivial
  cases r with
  | ok m => exact (Prog.after_pure _).2 rfl
  | error e =>
      rw [addResult, Prog.after_ite]
      refine ⟨fun _ => ?_, fun _ => (Prog.after_pure _).2 rfl⟩
      rw [Prog.after_bind]
      refine Prog.after_mono (fun _ _ _ => ?_) (fun _ _ => id) hany
      rw [Prog.after_bind]
      exact Prog.after_mono (fun _ _ _ => (Prog.after_pure _).2 rfl) (fun _ _ => id) hany

/-- The results of the gathered scans are added up. -/
theorem addResults_idle (serverId serverName : String) (results : List (Except PyError ℕ)) :
    after (recording Answers) (results.foldlM (addResult (V := V) serverId serverName) 0)
      (fun n u => Idle t u ∧ n = returnedOf results) (fun _ => Idle t) t := by
  refine Prog.after_foldlM (I := fun done n u => Idle t u ∧ n = returnedOf done) ⟨.refl t, rfl⟩ ?_
  rintro done r rest n u - ⟨hu, rfl⟩
  refine Prog.after_mono (fun m v hv => ⟨hu.trans hv.1, ?_⟩) (fun _ _ hv => hu.trans hv)
    (addResult_idle serverId serverName _ r)
  rw [hv.2, addedOf_snoc]

/-- **One server**: what it returns is what its scans have returned. -/
theorem scanSingleServer_adds {readInt : String → Option ℤ} {server : ScanServer}
    {caches : Option V × V × V} (hcaches : CachesReady t caches)
    (hserver : ∃ servers, ⟨.mediaServers, .ok servers⟩ ∈ t ∧
      ServerOpen servers (server.id.getD "0")) :
    after (recording Answers) (scanSingleServer readInt server caches) (Adds t)
      (fun _ => Justifies t) t := by
  rw [scanSingleServer, Prog.after_ite]
  refine ⟨fun _ => ?_, fun _ => ?_⟩
  · refine adds_seq (yields_call rfl rfl) fun libs t₁ _ _ => ?_
    exact Prog.after_foldlM (I := fun _ n u => Adds t₁ n u) (Idle.refl t₁).addsZero
      fun _ lib _ _ _ _ hn => scanOnePlex_adds server caches.1 lib hn
  rw [Prog.after_ite]
  refine ⟨fun _ => adds_zero (plain_addLog _ _ _), fun _ => ?_⟩
  refine adds_seq (yields_idle (plain_call rfl)) fun _ t₁ h₁ _ => ?_
  refine adds_seq (yields_call rfl rfl) fun libs t₂ h₂ hlibs => ?_
  rw [Prog.after_ite]
  refine ⟨fun _ => (Prog.after_pure _).2 (Idle.refl t₂).addsZero, fun _ => ?_⟩
  refine adds_seq (yields_call rfl rfl) fun users t₃ h₃ husers => ?_
  refine adds_seq (yields_userIdsOf users) fun ids t₄ h₄ hids => ?_
  rw [Prog.after_ite]
  refine ⟨fun _ => adds_zero (plain_abortScanNoUsers _ _), fun hsome => ?_⟩
  refine adds_seq (yields_call rfl rfl) fun queuedIgnored t₅ h₅ hq => ?_
  refine adds_seq (yields_activityLog _) fun activity t₆ h₆ ha => ?_
  refine adds_seq (yields_idle plain_parallelScans) fun parallel t₇ h₇ _ => ?_
  have j₅ := h₆.justifies.trans h₇.justifies
  have j₃ := h₄.justifies.trans (h₅.justifies.trans j₅)
  have j₂ := h₃.justifies.trans j₃
  have j := h₁.justifies.trans (h₂.justifies.trans j₂)
  obtain ⟨servers, hservers, hopen⟩ := hserver
  have hready := hcaches.mono j
  rw [Prog.after_bind]
  refine after_scan (fun _ => ?_) fun results hn => ?_
  · -- every library is scanned with the same users, caches and activity log
    intro args hargs
    obtain ⟨lib, hlib, rfl⟩ := List.mem_map.1 hargs
    exact
      { users := ⟨users, j₃.mem husers, hids⟩
        someUser := hsome
        radarr := hready.radarr
        sonarr := hready.sonarr
        queuedIgnored := j₅.mem hq
        seerr := hready.seerr
        activity := fun log hlog => h₇.justifies.mem (ha log hlog)
        library := .inl ⟨libs, j₂.mem hlibs, hlib⟩
        server := ⟨servers, j.mem hservers, hopen⟩ }
  · refine Prog.after_mono (fun n v hv => ?_) (fun _ v hv => hn.justifies.trans hv.justifies)
      (addResults_idle _ _ results)
    rw [hv.2]
    exact hn.idle hv.1

/-! ### All servers -/

theorem Report.of_error {message : String} (h : Justifies t u) : Report t u "error" message :=
  ⟨h, fun hs => absurd hs (by decide), fun _ he => absurd rfl he⟩

/-- The servers of a scan are not switched off, unless all are. -/
theorem yields_serversToScan :
    Yields t (serversToScan (V := V)) fun servers u => ∀ server ∈ servers,
      ∃ all, ⟨.mediaServers, .ok all⟩ ∈ u ∧ ServerOpen all (server.id.getD "0") := by
  refine .bind (yields_call rfl rfl) fun all t₁ _ hall => ?_
  have hopen : ∀ s ∈ all, s.enabled.getD true = true → ServerOpen all (s.id.getD "0") := by
    refine fun s hs henabled => .inl ⟨s, hs, .inl rfl, fun hoff => ?_⟩
    rw [hoff] at henabled
    exact Bool.noConfusion henabled
  by_cases hnone : all.filter (·.enabled.getD true) = []
  · rw [if_pos hnone]
    refine Yields.bind (yields_call rfl rfl) fun kind t₂ h₂ _ => ⟨.refl t₂, ?_⟩
    intro server hserver
    obtain rfl := List.mem_singleton.1 hserver
    refine ⟨all, h₂.justifies.mem hall, .inr (.inl ⟨fun s hs => ?_, rfl⟩)⟩
    have hoff := List.filter_eq_nil_iff.1 hnone s hs
    rcases henabled : s.enabled with _ | _ | _ <;> simp_all
  · rw [if_neg hnone]
    refine ⟨.refl t₁, fun server hserver => ⟨all, hall, ?_⟩⟩
    exact hopen server (List.mem_of_mem_filter hserver) ((List.mem_filter.1 hserver).2)

/-- **A scan of all servers**: the report is true. -/
theorem runScanBody_reports {readInt : String → Option ℤ} :
    after (recording Answers) (runScanBody (V := V) readInt)
      (fun res u => Report t u res.1 res.2) (fun _ => Justifies t) t := by
  rw [runScanBody]
  refine after_seq (S := fun t (res : String × String) v => Report t v res.1 res.2)
    (fun h h' => h.report h') (yields_idle (plain_addLog _ _ _)) fun _ t₀ _ _ => ?_
  rw [exceptWhen, Prog.after_tryCatch]
  have hmain : after (recording Answers) (do
      let servers ← serversToScan
      let caches ← buildSharedCaches
      let added ← servers.foldlM (fun added server => do
        let n ← scanSingleServer readInt server caches
        Pure.pure (added + n)) 0
      addLog "INFO" (.lm "scan.done" [("n", toString added)]) "job"
      call .purgeStale
      call .syncCollection
      call .sendPending
      Pure.pure ("success", toString added ++ " queued"))
      (fun res u => Report t₀ u res.1 res.2) (fun _ => Justifies t₀) t₀ := by
    refine after_seq (S := fun t (res : String × String) v => Report t v res.1 res.2)
      (fun h h' => h.report h') yields_serversToScan fun servers t₁ _ hservers => ?_
    refine after_seq (S := fun t (res : String × String) v => Report t v res.1 res.2)
      (fun h h' => h.report h') yields_buildSharedCaches fun caches t₂ h₂ hcaches => ?_
    rw [Prog.after_bind]
    refine Prog.after_mono (fun added u hu => ?_) (fun _ _ => id) (Prog.after_foldlM
      (I := fun _ n u => Adds t₂ n u) (E := fun _ => Justifies t₂) (Idle.refl t₂).addsZero ?_)
    · refine adds_then hu (plain_addLog _ _ _) fun _ v hv => ?_
      refine adds_then hv (plain_call rfl) fun _ w hw => ?_
      refine adds_then hw (plain_call rfl) fun _ y hy => ?_
      exact adds_then hy (plain_call rfl) fun _ z hz => (Prog.after_pure _).2 hz.report
    · rintro done server rest n u hsplit hu
      obtain ⟨all, hall, hopen⟩ := hservers server (hsplit ▸ by simp)
      rw [Prog.after_bind]
      refine Prog.after_mono (fun m v hv => ?_) (fun _ v hv => hu.justifies.trans hv)
        (scanSingleServer_adds (hcaches.mono hu.justifies)
          ⟨all, (h₂.justifies.trans hu.justifies).mem hall, hopen⟩)
      exact (Prog.after_pure _).2 (hu.trans hv)
  refine Prog.after_mono (fun _ _ => id) (fun e u hu => ?_) hmain
  rw [Prog.after_ite, Prog.after_throw]
  refine ⟨fun _ => ?_, fun _ => hu⟩
  rw [Prog.after_bind]
  refine Prog.after_mono (fun _ v hv => ?_) (fun _ v hv => hu.trans hv.justifies)
    (idle_of_plain (plain_addLog _ _ _))
  rw [Prog.after_bind]
  have huv := hu.trans hv.justifies
  exact Prog.after_mono (fun _ w hw => (Prog.after_pure _).2
    (Report.of_error (huv.trans hw.justifies))) (fun _ w hw => huv.trans hw.justifies)
      (idle_of_plain (plain_alertIfWanted _ _ _ _ _))

/-! ### The jobs -/

/-- What a record says of the row that has been opened is what the record tells since then. -/
theorem rowTrue_of_report {jobType status message : String} {id : ℕ}
    (h : Report (t ++ [⟨.addJobRun jobType, .ok id⟩]) u status message)
    (hopened : opened u = opened (t ++ [⟨.addJobRun jobType, .ok id⟩])) :
    RowTrue u id status message := by
  obtain ⟨l, rfl⟩ := h.justifies.exists_append
  have hnone : opened l = [] := by
    rw [opened, List.filterMap_append] at hopened
    exact List.append_cancel_left (hopened.trans (List.append_nil _).symm)
  refine ⟨t, jobType, l, by simp, hnone, fun hs => ?_, fun hs he e hel => ?_⟩
  · obtain ⟨n, hn, rfl⟩ := h.success hs
    have hreturned : returnedIn l = n := by
      rw [returnedIn, List.map_append, List.sum_append] at hn
      exact Nat.add_left_cancel hn
    rw [hreturned]
  · have hscans := h.noScan hs he
    unfold scansIn at hscans
    rw [List.countP_append] at hscans
    have hzero : l.countP (fun e => e.1.scans) = 0 := by omega
    simpa using List.countP_eq_zero.1 hzero e hel

/-- A call that is no scan, and that demands nothing, leaves a report true. -/
theorem Report.snoc {status message : String} {e : JobEvent V} (h : Report t u status message)
    (he : CallJustified u e) (hscan : e.1.scans = false) : Report t (u ++ [e]) status message := by
  refine ⟨h.justifies.snoc he, fun hs => ?_, fun hs herror => ?_⟩
  · rw [returnedIn_snoc, returnedBy_of_not_scans hscan, add_zero]
    exact h.success hs
  · rw [scansIn_snoc, hscan, Bool.toNat_false, add_zero]
    exact h.noScan hs herror

/-- A program that only ever justifies its calls. -/
def Faithful (x : Job V α) : Prop :=
  ∀ t, after (recording Answers) x (fun _ => Justifies t) (fun _ => Justifies t) t

namespace Faithful

theorem of_plain {x : Job V α} (h : Only Plain x) : Faithful x := fun _ =>
  Prog.after_mono (fun _ _ hu => hu.justifies) (fun _ _ hu => hu.justifies) (idle_of_plain h)

theorem from_after {x : Job V α} (h : Faithful x) (hu : Justifies t u) :
    after (recording Answers) x (fun _ => Justifies t) (fun _ => Justifies t) u :=
  Prog.after_mono (fun _ _ hv => hu.trans hv) (fun _ _ hv => hu.trans hv) (h u)

theorem bind {x : Job V α} {f : α → Job V β} (hx : Faithful x) (hf : ∀ a, Faithful (f a)) :
    Faithful (x >>= f) := by
  intro t
  rw [Prog.after_bind]
  exact Prog.after_mono (fun a _ hu => (hf a).from_after hu) (fun _ _ => id) (hx t)

theorem exceptWhen {caught : PyError → Bool} {x : Job V α} {h : PyError → Job V α}
    (hx : Faithful x) (hh : ∀ e, Faithful (h e)) : Faithful (exceptWhen caught x h) := by
  intro t
  rw [Hygie.exceptWhen, Prog.after_tryCatch]
  refine Prog.after_mono (fun _ _ => id) (fun e u hu => ?_) (hx t)
  rw [Prog.after_ite, Prog.after_throw]
  exact ⟨fun _ => (hh e).from_after hu, fun _ => hu⟩

theorem finallyDo {x : Job V α} {f : Job V Unit} (hx : Faithful x) (hf : Faithful f) :
    Faithful (Prog.finallyDo x f) := by
  intro t
  rw [Prog.after_finallyDo]
  exact Prog.after_mono (fun _ _ hu => hf.from_after hu) (fun _ _ hu => hf.from_after hu) (hx t)

/-- A call that demands nothing. -/
theorem call {q : JobCall V} (h : ∀ t r, CallJustified t ⟨q, r⟩) : Faithful (call q) := by
  intro t
  rw [after_call]
  exact ⟨fun _ _ => .snoc .refl (h t _), fun _ _ => .snoc .refl (h t _)⟩

end Faithful

theorem opened_snoc {e : JobEvent V} (he : openedBy e = none) (t : List (JobEvent V)) :
    opened (t ++ [e]) = opened t := by
  rw [opened, List.filterMap_append, List.filterMap_cons_none he, List.filterMap_nil,
    List.append_nil]
  rfl

/-- Work opens no row. -/
theorem opened_of_working {x : Job V α} (h : Only Working x) :
    after (recording Answers) x (fun _ u => opened u = opened t)
      (fun _ u => opened u = opened t) t := by
  refine after_only (I := fun u => opened u = opened t) h (fun u e he hu => ?_) rfl
  have hnone : openedBy e = none := by
    obtain ⟨q, r⟩ := e
    cases q <;> first | rfl | cases he
  rw [opened_snoc hnone, hu]

/-- Closing a row with a true report. -/
theorem closeRow_faithful {jobType status message : String} {id : ℕ} {token : Option ℕ}
    (h : Report (t ++ [⟨.addJobRun jobType, .ok id⟩]) u status message)
    (hopened : opened u = opened (t ++ [⟨.addJobRun jobType, .ok id⟩])) :
    after (recording Answers)
      (do
        call (.resetContext token)
        call (.finishJobRun id status message))
      (fun _ => Justifies (t ++ [⟨.addJobRun jobType, .ok id⟩]))
      (fun _ => Justifies (t ++ [⟨.addJobRun jobType, .ok id⟩])) u := by
  rw [Prog.after_bind, after_call]
  refine ⟨fun _ _ => ?_, fun e he => (by cases he)⟩
  have hreset := h.snoc (e := ⟨.resetContext token, .ok ()⟩) trivial rfl
  have htrue := rowTrue_of_report hreset ((opened_snoc rfl u).trans hopened)
  rw [after_call]
  exact ⟨fun _ _ => hreset.justifies.snoc htrue, fun _ _ => hreset.justifies.snoc htrue⟩

/-- **The row of a job** reports what was done. -/
theorem jobRow_faithful {jobType : String} {x : Job V (String × String)}
    {caught : PyError → Bool} {handle : PyError → Job V String}
    (hx : ∀ u, Justifies t u → after (recording Answers) x
      (fun res v => Report u v res.1 res.2) (fun _ => Justifies u) u)
    (hwork : Only Working x) (hhandle : ∀ e, Only Plain (handle e)) :
    after (recording Answers) (jobRow jobType x caught handle) (fun _ => Justifies t)
      (fun _ => Justifies t) t := by
  rw [jobRow, Prog.after_bind, after_call]
  refine ⟨fun runId _ => ?_, fun e _ => .snoc .refl trivial⟩
  have hopened : Justifies t (t ++ [⟨.addJobRun jobType, .ok runId⟩]) := .snoc .refl trivial
  rw [Prog.after_bind, after_call]
  refine ⟨fun token _ => ?_, fun e he => (by cases he)⟩
  -- the report is measured from the opening of the row
  have hstart : Idle (t ++ [⟨.addJobRun jobType, .ok runId⟩])
      (t ++ [⟨.addJobRun jobType, .ok runId⟩] ++ [⟨.setContext runId, .ok token⟩]) :=
    ⟨.snoc .refl trivial, by rw [returnedIn_snoc]; rfl, by rw [scansIn_snoc]; rfl⟩
  have hclose : ∀ {u status message},
      Report (t ++ [⟨.addJobRun jobType, .ok runId⟩] ++ [⟨.setContext runId, .ok token⟩]) u status
        message →
      opened u = opened (t ++ [⟨.addJobRun jobType, .ok runId⟩] ++
        [⟨.setContext runId, .ok token⟩]) →
      after (recording Answers)
        (do
          call (.resetContext token)
          call (.finishJobRun runId status message))
        (fun _ => Justifies t) (fun _ => Justifies t) u :=
    fun h hu => Prog.after_mono (fun _ _ hv => hopened.trans hv) (fun _ _ hv => hopened.trans hv)
      (closeRow_faithful (hstart.report h) (hu.trans (opened_snoc rfl _)))
  rw [Prog.after_bind, Prog.after_attempt]
  refine Prog.after_mono (fun result u hu => hclose hu.1 hu.2) (fun e u hu => ?_)
    (Prog.after_and (hx _ (hopened.snoc trivial)) (opened_of_working hwork))
  show after _ (if caught e then _ else _) _ _ u
  rw [Prog.after_ite]
  refine ⟨fun _ => ?_, fun _ => ?_⟩
  · rw [Prog.after_bind, Prog.after_attempt]
    refine Prog.after_mono (fun msg v hv => ?_) (fun e' v hv => ?_)
      (Prog.after_and (idle_of_plain (hhandle e)) (opened_of_working (hhandle e).scanning.working))
    · exact hclose (Report.of_error (hu.1.trans hv.1.justifies)) (hv.2.trans hu.2)
    · show after _ (_ >>= _) _ _ v
      rw [Prog.after_bind]
      exact Prog.after_mono (fun _ _ => id) (fun _ _ => id)
        (hclose (Report.of_error (hu.1.trans hv.1.justifies)) (hv.2.trans hu.2))
  · rw [Prog.after_bind]
    exact Prog.after_mono (fun _ _ => id) (fun _ _ => id) (hclose (Report.of_error hu.1) hu.2)

theorem withScanLock_faithful {x : Job V Unit} (hx : Faithful x) : Faithful (withScanLock x) :=
  (Faithful.call (q := .acquire) fun _ _ => trivial).bind fun _ =>
    hx.finallyDo (.call (q := .release) fun _ _ => trivial)

theorem unlessLocked_faithful {body skipped : Job V Unit} (hbody : Faithful body)
    (hskipped : Only Plain skipped) : Faithful (unlessLocked body skipped) :=
  (Faithful.of_plain (plain_call rfl)).bind fun taken => by
    cases taken with
    | true => exact .of_plain (plain_call rfl)
    | false => exact (withScanLock_faithful hbody).exceptWhen fun _ => .of_plain hskipped

variable {pyRepr : String → String} {readInt : String → Option ℤ}

theorem libraryRow_faithful (libraryId : String) {caches : Option (Option V × V × V)}
    (hcaches : ∀ c, caches = some c → CachesReady t c) :
    after (recording Answers) (libraryRow pyRepr libraryId caches) (fun _ => Justifies t)
      (fun _ => Justifies t) t := by
  refine jobRow_faithful (fun u hu => ?_) (.bind (working_doScanOneLibrary _ _) fun _ => .pure _)
    fun _ => .bind (plain_addLog _ _ _) fun _ => .pure _
  rw [Prog.after_bind]
  exact Prog.after_mono (fun _ _ hv => (Prog.after_pure _).2 hv) (fun _ _ => id)
    (doScanOneLibrary_reports libraryId fun c hc => (hcaches c hc).mono hu)

/-- **Every call of a job is justified.** -/
theorem run_faithful (job : ScanJob) : Faithful (job.run (V := V) pyRepr readInt) := by
  have hpost : Faithful (V := V) (do
      call .syncCollection
      call .sendPending) :=
    .of_plain (.bind (plain_call rfl) fun _ => plain_call rfl)
  cases job with
  | full =>
      refine unlessLocked_faithful (fun t => jobRow_faithful (fun u _ => ?_)
        (working_runScanBody.waitFor) fun _ => .bind (plain_addLog _ _ _) fun _ =>
          .pure _) (plain_call rfl)
      rw [waitFor, Prog.after_tryCatch]
      refine Prog.after_mono (fun _ _ => id) (fun e v hv => ?_) runScanBody_reports
      rw [Prog.after_ite, Prog.after_throw, Prog.after_throw]
      exact ⟨fun _ => hv, fun _ => hv⟩
  | library id =>
      refine unlessLocked_faithful (.bind (fun t => ?_) fun _ => hpost) (.pure _)
      exact libraryRow_faithful id nofun
  | libraries ids =>
      refine unlessLocked_faithful (.finallyDo (.exceptWhen (fun t => ?_) fun e => ?_) hpost)
        (.pure _)
      · rw [Prog.after_bind]
        refine Prog.after_mono (fun caches u hu => ?_) (fun _ _ hu => hu.justifies)
          yields_buildSharedCaches
        -- the caches stay on record while the libraries are scanned
        refine Prog.after_foldlM (I := fun _ _ v => Justifies t v ∧ CachesReady v caches)
          (E := fun _ => Justifies t) ⟨hu.1.justifies, hu.2⟩ ?_ |> Prog.after_mono
            (fun _ _ hv => hv.1) fun _ _ => id
        rintro done id rest _ v - ⟨hv, hready⟩
        refine Prog.after_mono (fun _ w hw => ⟨hv.trans hw, hready.mono hw⟩)
          (fun _ _ hw => hv.trans hw) (libraryRow_faithful id ?_)
        rintro c ⟨⟩
        exact hready
      · exact .of_plain (plain_addLog _ _ _)

/-! ### The laws -/

/-- **No library is scanned blindly**: whenever a job scans a library of Emby or Jellyfin, alone or
among others, its server has named the users, at least one, and everything else it is scanned with
is on record. -/
theorem scanReady_of_run {job : ScanJob} {o : Except PyError Unit} {l l' : List (JobEvent V)}
    {q : JobCall V} {r : q.Answer} {args : ScanArgs V}
    (hrun : Reaches (recording Answers) (job.run pyRepr readInt) s o (s ++ l ++ ⟨q, r⟩ :: l'))
    (hq : q = .scanLibrary args ∨ ∃ argss n, q = .gatherScans argss n ∧ args ∈ argss) :
    ScanReady (s ++ l) args := by
  have hends := Prog.after_iff.1 (run_faithful job s) _ _ hrun
  have hjustified : CallJustified (s ++ l) ⟨q, r⟩ := by
    cases o with
    | ok a => exact hends.ok_of_split rfl
    | error e => exact hends.ok_of_split rfl
  rcases hq with rfl | ⟨argss, n, rfl, hargs⟩
  · exact hjustified
  · exact hjustified args hargs

/-- Two libraries of one server, the first of which cannot be scanned. -/
def sampleAnswer (tr : List (JobEvent ℕ)) : ∀ q : JobCall ℕ, q.Answer
  | .locked | .getBoolSetting _ => .ok false
  | .addJobRun _ => .ok tr.length
  | .setContext _ => .ok (contextOf tr)
  | .getSetting _ => .ok ""
  | .libraryById id => .ok (some { id := id, serverId := some "1" })
  | .enabledLibraries _ => .ok []
  | .mediaServers => .ok [{ id := some "1", type := some "emby" }]
  | .buildSeerr | .buildRadarr | .buildSonarr | .queuedAndIgnored | .playActivity .. => .ok 0
  | .users _ => .ok [some "u"]
  | .scanLibrary args => if args.library.id = "a" then .error (.other "unreadable") else .ok 2
  | .gatherScans args _ => .ok (args.map fun _ => .ok 2)
  | .scanPlexLibrary .. => .ok 0
  | .acquire | .release | .finishJobRun .. | .resetContext _ | .addLog .. => .ok ()
  | .ensureServerUid _ | .sendAlert _ | .purgeStale | .syncCollection | .sendPending => .ok ()
  | .warnIfStarved .. => .ok ()

/-- A job with these answers: how it ends, and its record. -/
def sampleRun (job : ScanJob) : Except PyError Unit × List (JobEvent ℕ) :=
  Prog.exec (fun q tr => (sampleAnswer tr q, tr ++ [⟨q, sampleAnswer tr q⟩]))
    (job.run (fun s => s) fun _ => none) []

theorem reaches_sampleRun (job : ScanJob) :
    Reaches (recording Answers) (job.run (fun s => s) fun _ => none) [] (sampleRun job).1
      (sampleRun job).2 := by
  refine Prog.reaches_exec fun q tr => ⟨?_, rfl⟩
  cases q with
  | locked => exact ⟨false, rfl⟩
  | setContext => exact rfl
  | resetContext => exact rfl
  | addLog => nofun
  | gatherScans args =>
      rintro results h
      obtain rfl := Except.ok.inj h
      exact List.length_map _
  | _ => trivial

/-- The arguments with which the second library is scanned. -/
def sampleArgs : ScanArgs ℕ :=
  ⟨{ id := "b", serverId := some "1" }, ["u"], "1", "", 0, 0, some 0, 0, some 0⟩

theorem scanReady_of_run_sample :
    ScanReady ([] ++ (sampleRun (.libraries ["a", "b"])).2.take 25) sampleArgs :=
  have hsplit : (sampleRun (.libraries ["a", "b"])).2 =
      [] ++ (sampleRun (.libraries ["a", "b"])).2.take 25 ++
        ⟨.scanLibrary sampleArgs, .ok 2⟩ :: (sampleRun (.libraries ["a", "b"])).2.drop 26 := rfl
  scanReady_of_run (hsplit ▸ reaches_sampleRun (.libraries ["a", "b"])) (.inl rfl)

/-- **Every row is to be closed, once, and reports what the scans have returned**: however a job
ends, `finish_job_run` is called once for every row that was opened, the release of the lock as
often as it was taken, and the log goes back to its job. -/
theorem rows_of_run {job : ScanJob} {o : Except PyError Unit} {t : List (JobEvent V)}
    (hrun : Reaches (recording Answers) (job.run pyRepr readInt) s o t) :
    (∃ l, Ledger s [] 0 (contextOf s) t l) ∧
      ∀ l id status message r l', t = s ++ l ++ ⟨.finishJobRun id status message, r⟩ :: l' →
        RowTrue (s ++ l) id status message := by
  have hledger := Prog.after_iff.1 (run_balances job s 0 _ s (HasLedger.refl s)) _ _ hrun
  have hjustifies := Prog.after_iff.1 (run_faithful job s) _ _ hrun
  cases o with
  | ok a =>
      exact ⟨hledger, fun l id status message r l' ht => hjustifies.ok_of_split ht⟩
  | error e =>
      exact ⟨hledger, fun l id status message r l' ht => hjustifies.ok_of_split ht⟩

theorem rows_of_run_sample :
    (∃ l, Ledger [] [] 0 none (sampleRun (.libraries ["a", "b"])).2 l) ∧
      ∀ l id status message r l', (sampleRun (.libraries ["a", "b"])).2 =
        [] ++ l ++ ⟨.finishJobRun id status message, r⟩ :: l' →
          RowTrue ([] ++ l) id status message :=
  rows_of_run (reaches_sampleRun (.libraries ["a", "b"]))

end Reports

end Hygie
