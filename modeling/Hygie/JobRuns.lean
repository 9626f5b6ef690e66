/-
**The scan jobs.**

A scan takes the scan lock, opens a row of `job_history`, works through the libraries, and closes
the row.  Everything it calls may fail, and the task may be cancelled at every `await`: by the cap
on the time of a scan, or from outside.  The model keeps the whole record of a run, every call with
its answer, and lets the answers be anything that the functions called can answer; the scan of one
library is one of these calls.

What the scan only hands on, such as the path caches, is a value of a type `V`.  The identifiers of
a server are texts, and `enabled` is a flag that may be missing.

Main definitions:

* `JobCall`, `Answers` — the calls, and what may answer them;
* `doScanOneLibrary`, `scanSingleServer`, `buildSharedCaches`, `runScanBody` — the work;
* `runScan`, `runScanLibrary`, `runScanLibraries` — the jobs.
-/

import Hygie.ProgTriples
import Hygie.Schema

set_option relaxedAutoImplicit false
set_option autoImplicit false

namespace Hygie

/-! ### What is asked -/

/-- An exception, with its text. -/
inductive PyError
  | arrClient (detail : String)
  | unreachable (detail : String)
  | timeout (detail : String)
  | lockNotAvailable (detail : String)
  | other (detail : String)
  /-- The task is cancelled, because its time is up or by somebody else. -/
  | cancelled (timeUp : Bool)
  deriving DecidableEq, Repr

namespace PyError

/-- `str(e)`. -/
def text : PyError → String
  | arrClient detail | unreachable detail | timeout detail | lockNotAvailable detail
  | other detail => detail
  | cancelled _ => ""

/-- `except Exception` catches it. -/
def isException : PyError → Bool
  | cancelled _ => false
  | _ => true

def isTimeout : PyError → Bool
  | timeout _ => true
  | _ => false

def isArrClient : PyError → Bool
  | arrClient _ => true
  | _ => false

def isLockNotAvailable : PyError → Bool
  | lockNotAvailable _ => true
  | _ => false

def isUnreachable : PyError → Bool
  | unreachable _ => true
  | _ => false

end PyError

/-- A server of `get_media_servers`, as far as a scan reads it. -/
structure ScanServer where
  id : Option String := none
  name : Option String := none
  type : Option String := none
  enabled : Option Bool := none
  deriving DecidableEq, Repr

/-- A row of `libraries`, as far as a scan reads it. -/
structure ScanLibrary where
  id : String
  name : Option String := none
  serverId : Option String := none
  deriving DecidableEq, Repr

/-- A message of the log: one of the translated ones with its parameters, or a text. -/
inductive LogText
  | lm (key : String) (params : List (String × String))
  | text (s : String)
  deriving DecidableEq, Repr

/-- What `send_alert` is called with. -/
structure Alert where
  title : String
  description : String
  kind : String
  mention : String := ""
  customMsg : String := ""
  detail : String
  deriving DecidableEq, Repr

/-- What `_scan_library` is called with. -/
structure ScanArgs (V : Type) where
  library : ScanLibrary
  userIds : List String
  serverId : String
  serverName : String
  radarrCache : V
  sonarrCache : V
  /-- The cache of Seerr; nothing stands for an empty one. -/
  seerrCache : Option V
  queuedIgnored : V
  /-- The activity log; nothing stands for an empty one. -/
  activity : Option V

/-- The calls of a scan. -/
inductive JobCall (V : Type)
  /-- `_scan_lock.locked()`, `__aenter__` and `__aexit__`. -/
  | locked
  | acquire
  | release
  | addJobRun (jobType : String)
  | finishJobRun (runId : ℕ) (status message : String)
  /-- `set_job_context`, and `reset` with the value that a token stands for. -/
  | setContext (runId : ℕ)
  | resetContext (token : Option ℕ)
  | addLog (level : String) (message : LogText) (source : String)
  | getSetting (key : String)
  | getBoolSetting (key : String)
  /-- `SELECT * FROM libraries WHERE id=? AND enabled=1`. -/
  | libraryById (id : String)
  | enabledLibraries (serverId : String)
  | mediaServers
  | buildSeerr
  | buildRadarr
  | buildSonarr
  | ensureServerUid (serverId : String)
  /-- `get_users`; a user may come without an `Id`. -/
  | users (serverId : String)
  | queuedAndIgnored
  | playActivity (serverId : String) (days : ℕ)
  | scanLibrary (args : ScanArgs V)
  /-- `asyncio.gather` of `_scan_library` over some libraries, so many at a time. -/
  | gatherScans (args : List (ScanArgs V)) (parallel : ℕ)
  | scanPlexLibrary (server : ScanServer) (library : ScanLibrary) (seerrCache : Option V)
  | sendAlert (alert : Alert)
  | purgeStale
  | syncCollection
  | sendPending
  /-- `warn_if_job_starved`. -/
  | warnIfStarved (jobType settingKey : String) (defaultMinutes : ℕ) (label : String)

namespace JobCall

variable {V : Type}

/-- What a call returns. -/
abbrev Body : JobCall V → Type
  | .locked | .getBoolSetting _ => Bool
  | .addJobRun _ | .scanLibrary _ | .scanPlexLibrary .. => ℕ
  | .setContext _ => Option ℕ
  | .getSetting _ => String
  | .libraryById _ => Option ScanLibrary
  | .enabledLibraries _ => List ScanLibrary
  | .mediaServers => List ScanServer
  | .buildSeerr | .buildRadarr | .buildSonarr | .queuedAndIgnored | .playActivity .. => V
  | .users _ => List (Option String)
  | .gatherScans .. => List (Except PyError ℕ)
  | _ => Unit

/-- A call returns or raises. -/
abbrev Answer (q : JobCall V) : Type := Except PyError q.Body

end JobCall

/-- A program of the jobs. -/
abbrev Job (V α : Type) : Type := Prog (JobCall V) JobCall.Answer PyError α

/-- A call with its answer. -/
abbrev JobEvent (V : Type) : Type := Prog.Event (JobCall V) JobCall.Answer

section Programs

variable {V α : Type}

/-- One call; what it raises is raised. -/
def call (q : JobCall V) : Job V q.Body := do
  match ← Prog.perform q with
  | .ok b => pure b
  | .error e => throw e

/-- `try: x except …: h`, for the exceptions that `caught` tells. -/
def exceptWhen (caught : PyError → Bool) (x : Job V α) (h : PyError → Job V α) : Job V α :=
  tryCatch x fun e => if caught e then h e else throw e

def addLog (level : String) (message : LogText) (source : String) : Job V Unit :=
  call (.addLog level message source)

/-- The alert about a failure that the settings `key`, `key_mention` and `key_msg` ask for. -/
def alertIfWanted (key title description kind detail : String) : Job V Unit := do
  if ← call (.getBoolSetting key) then
    let mention ← call (.getSetting (key ++ "_mention"))
    let msg ← call (.getSetting (key ++ "_msg"))
    call (.sendAlert ⟨title, description, kind, mention, msg, detail⟩)

/-! ### The answers -/

/-- The job that `add_log` writes its lines for. -/
def contextOf (tr : List (JobEvent V)) : Option ℕ :=
  tr.foldl (fun ctx e => match e.1 with
    | .setContext runId => some runId
    | .resetContext token => token
    | _ => ctx) none

/-- **What may answer a call** after the calls on record.  `add_log` catches every exception of its
own; for all other calls anything goes. -/
def Answers (tr : List (JobEvent V)) : ∀ q : JobCall V, q.Answer → Prop
  | .locked, r => ∃ taken, r = .ok taken
  | .setContext _, r => r = .ok (contextOf tr)
  | .resetContext _, r => r = .ok ()
  | .addLog .., r => ∀ e, r = .error e → e.isException = false
  | .gatherScans args _, r => ∀ results, r = .ok results → results.length = args.length
  | _, _ => True

/-! ### The work -/

/-- The cache that a caller has passed on, or a new one. -/
def orBuild (cache : Option α) (build : Job V α) : Job V α :=
  match cache with
  | some cache => pure cache
  | none => build

/-- The cache of Seerr; without one where Seerr cannot be reached. -/
def buildSeerrCache (warning : PyError → LogText) : Job V (Option V) :=
  exceptWhen PyError.isArrClient
    (do
      let cache ← call .buildSeerr
      pure (some cache))
    fun e => do
      addLog "WARN" (warning e) "scan"
      alertIfWanted "discord_alert_seerr_failure" "🔌 Seerr inaccessible" e.text "warning" e.text
      pure none

/-- `_build_shared_caches`: of Seerr, Radarr and Sonarr. -/
def buildSharedCaches : Job V (Option V × V × V) := do
  let seerrCache ← buildSeerrCache fun e => .lm "scan.seerr_unreachable" [("detail", e.text)]
  let radarrCache ← call .buildRadarr
  let sonarrCache ← call .buildSonarr
  pure (seerrCache, radarrCache, sonarrCache)

/-- `_abort_scan_no_users`. -/
def abortScanNoUsers (serverId serverName : String) : Job V Unit := do
  let label := if serverName ≠ "" then serverName else serverId
  addLog "ERROR" (.text ("Scan annulé : aucun utilisateur retourné par le serveur \x27" ++ label ++
    "\x27 — l\x27historique de visionnage est inconnu, rien ne sera mis en file")) "scan"
  call (.sendAlert
    { title := "🛑 Scan annulé : utilisateurs introuvables"
      description := "Le serveur **" ++ label ++ "** n\x27a retourné aucun utilisateur. Sans " ++
        "historique de visionnage, tous les médias seraient considérés comme jamais vus — le " ++
        "scan a été annulé."
      kind := "error"
      detail := "aucun utilisateur sur " ++ label })

/-- The identifiers of the users; one without an `Id` is a `KeyError`. -/
def userIdsOf (users : List (Option String)) : Job V (List String) :=
  match users.mapM id with
  | some ids => pure ids
  | none => throw (.other "\x27Id\x27")

/-- The activity log of a server; an empty one where it cannot be read. -/
def activityLog (serverId : String) : Job V (Option V) :=
  exceptWhen PyError.isException
    (do
      let activity ← call (.playActivity serverId 730)
      pure (some activity))
    fun _ => pure none

/-- `max(1, n)` for the `n` that the setting means, or 3. -/
def parallelScans (readInt : String → Option ℤ) : Job V ℕ := do
  let value ← call (.getSetting "max_parallel_library_scans")
  pure (max 1 ((readInt (if value ≠ "" then value else "3")).getD 3)).toNat

-- `repr` of a text, and `int` of a text
variable (pyRepr : String → String) (readInt : String → Option ℤ)

/-- The Emby and Jellyfin path of `_do_scan_one_library`. -/
def scanEmbyLibrary (lib : ScanLibrary) (serverId serverName : String) (seerrCache : Option V)
    (radarrCache sonarrCache : Option V) : Job V (String × String × ℕ) := do
  let users ← call (.users serverId)
  let userIds ← userIdsOf users
  if userIds = [] then do
    abortScanNoUsers serverId serverName
    pure ("error", "no users returned by media server", 0)
  else do
    let radarr ← orBuild radarrCache (call .buildRadarr)
    let sonarr ← orBuild sonarrCache (call .buildSonarr)
    let queuedIgnored ← call .queuedAndIgnored
    let activity ← activityLog serverId
    let added ← call (.scanLibrary
      ⟨lib, userIds, serverId, serverName, radarr, sonarr, seerrCache, queuedIgnored, activity⟩)
    addLog "INFO" (.lm "scan.done" [("n", toString added)]) "job"
    pure ("success", toString added ++ " queued", added)

/-- What `_do_scan_one_library` does with the library that it has found. -/
def scanFound (libraryId : String) (lib : ScanLibrary) (caches : Option (Option V × V × V)) :
    Job V (String × String × ℕ) := do
  let libName := (truthyText lib.name).getD libraryId
  let serverId := (truthyText lib.serverId).getD "0"
  let servers ← call .mediaServers
  let found := servers.find? fun s => s.id.getD "None" == serverId
  let server := found.getD {}
  let serverName := server.name.getD ""
  if server.enabled = some false then do
    addLog "INFO" (.text ("Scan ignoré : serveur \x27" ++ serverName ++ "\x27 désactivé")) "scan"
    pure ("skipped", "server " ++ pyRepr serverName ++ " disabled", 0)
  else do
    addLog "INFO" (.lm "scan.lib_started" [("id", libName)]) "job"
    let seerrCache ← orBuild (caches.map (·.1)) (buildSeerrCache fun e =>
      .text ("Seerr inaccessible : " ++ e.text))
    if server.type.getD "" = "plex" then do
      let added ← call (.scanPlexLibrary server lib seerrCache)
      addLog "INFO" (.lm "scan.done" [("n", toString added)]) "job"
      pure ("success", toString added ++ " queued", added)
    else
      scanEmbyLibrary lib serverId serverName seerrCache (caches.map (·.2.1))
        (caches.map (·.2.2))

/-- `_do_scan_one_library`, with the caches of a caller who has them: status, message, and how many
were added. -/
def doScanOneLibrary (libraryId : String) (caches : Option (Option V × V × V)) :
    Job V (String × String × ℕ) := do
  match ← call (.libraryById libraryId) with
  | none => do
      addLog "WARN" (.lm "scan.lib_not_found" [("id", libraryId)]) "scan"
      pure ("warning", "Library not found", 0)
  | some lib => scanFound pyRepr libraryId lib caches

/-- The alert about a library whose watch state cannot be read, if it is wanted. -/
def alertIfUnreadable (serverId serverName : String) (e : PyError) : Job V Unit :=
  if e.isUnreachable then do
    if ← call (.getBoolSetting "discord_alert_scan_failure") then
      call (.sendAlert
        { title := "🛑 Bibliothèque non scannée : historique de visionnage illisible"
          description := "Le serveur **" ++ (if serverName ≠ "" then serverName else serverId) ++
            "** n\x27a pas pu fournir les données de visionnage : " ++ e.text ++
            ". La bibliothèque concernée n\x27a pas été scannée — aucun média n\x27a été mis " ++
            "en file pour elle."
          kind := "error"
          detail := e.text })
  else pure ()

/-- What becomes of one result of the gathered scans: it counts, or it is reported; a cancelled scan
is neither. -/
def addResult (serverId serverName : String) (added : ℕ) (result : Except PyError ℕ) : Job V ℕ :=
  match result with
  | .ok n => pure (added + n)
  | .error e =>
      if e.isException then do
        addLog "ERROR" (.lm "scan.lib_error" [("detail", e.text)]) "scan"
        alertIfUnreadable serverId serverName e
        pure added
      else pure added

/-- One library of a Plex server; an exception is logged. -/
def scanOnePlex (server : ScanServer) (seerrCache : Option V) (added : ℕ) (lib : ScanLibrary) :
    Job V ℕ :=
  exceptWhen PyError.isException
    (do
      let n ← call (.scanPlexLibrary server lib seerrCache)
      pure (added + n))
    fun e => do
      addLog "ERROR" (.text ("Scan Plex " ++ lib.name.getD "None" ++ ": " ++ e.text)) "scan"
      pure added

/-- `_scan_single_server`: how many were added. -/
def scanSingleServer (server : ScanServer) (caches : Option V × V × V) : Job V ℕ := do
  let serverId := server.id.getD "0"
  let serverType := server.type.getD ""
  let serverName := server.name.getD ""
  if serverType = "plex" then do
    let libs ← call (.enabledLibraries serverId)
    libs.foldlM (scanOnePlex server caches.1) 0
  else if serverType ≠ "emby" ∧ serverType ≠ "jellyfin" ∧ serverType ≠ "" then do
    addLog "INFO" (.lm "scan.lib_ignored_type" [("server_id", serverId), ("type", serverType)])
      "scan"
    pure 0
  else do
    call (.ensureServerUid serverId)
    let libs ← call (.enabledLibraries serverId)
    if libs = [] then pure 0
    else do
      let users ← call (.users serverId)
      let userIds ← userIdsOf users
      if userIds = [] then do
        abortScanNoUsers serverId serverName
        pure 0
      else do
        let queuedIgnored ← call .queuedAndIgnored
        let activity ← activityLog serverId
        let parallel ← parallelScans readInt
        let results ← call (.gatherScans (libs.map fun lib =>
          ⟨lib, userIds, serverId, serverName, caches.2.1, caches.2.2, caches.1, queuedIgnored,
            activity⟩) parallel)
        results.foldlM (addResult serverId serverName) 0

/-- The servers that a scan goes through. -/
def serversToScan : Job V (List ScanServer) := do
  let servers ← call .mediaServers
  let enabled := servers.filter (·.enabled.getD true)
  if enabled = [] then do
    let kind ← call (.getSetting "media_server_type")
    pure [{ id := some "0", type := some (if kind ≠ "" then kind else "emby") }]
  else pure enabled

/-- `_run_scan_body`: status and message. -/
def runScanBody : Job V (String × String) := do
  addLog "INFO" (.lm "scan.started" []) "job"
  exceptWhen PyError.isException
    (do
      let servers ← serversToScan
      let caches ← buildSharedCaches
      let added ← servers.foldlM (fun added server => do
        let n ← scanSingleServer readInt server caches
        pure (added + n)) 0
      addLog "INFO" (.lm "scan.done" [("n", toString added)]) "job"
      call .purgeStale
      call .syncCollection
      call .sendPending
      pure ("success", toString added ++ " queued"))
    fun e => do
      addLog "ERROR" (.lm "scan.error" [("detail", e.text)]) "job"
      alertIfWanted "discord_alert_scan_failure" "🔴 Échec du scan"
        ("Le scan global a échoué : " ++ e.text) "error" e.text
      pure ("error", e.text)

/-! ### The jobs -/

/-- `async with _scan_lock`. -/
def withScanLock (x : Job V Unit) : Job V Unit := do
  call .acquire
  Prog.finallyDo x (call .release)

/-- `asyncio.wait_for`: a cancellation because the time is up becomes a timeout. -/
def waitFor (x : Job V α) : Job V α :=
  tryCatch x fun e => if e = .cancelled true then throw (.timeout "") else throw e

/-- The frame of one row of `job_history`: `status, msg` are `"error", ""` until `x` returns them,
an exception that `caught` tells is logged and gives the message, and the row is closed whatever
happens. -/
def jobRow (jobType : String) (x : Job V (String × String)) (caught : PyError → Bool)
    (handle : PyError → Job V String) : Job V Unit := do
  let runId ← call (.addJobRun jobType)
  let token ← call (.setContext runId)
  let close (status msg : String) : Job V Unit := do
    call (.resetContext token)
    call (.finishJobRun runId status msg)
  match ← Prog.attempt x with
  | .ok result => close result.1 result.2
  | .error e =>
      if caught e then
        match ← Prog.attempt (handle e) with
        | .ok msg => close "error" msg
        | .error e' => do
            close "error" ""
            throw e'
      else do
        close "error" ""
        throw e

/-- The row of one library. -/
def libraryRow (libraryId : String) (caches : Option (Option V × V × V)) : Job V Unit :=
  jobRow "scan_library"
    (do
      let result ← doScanOneLibrary pyRepr libraryId caches
      pure (result.1, result.2.1))
    PyError.isException
    fun e => do
      addLog "ERROR" (.lm "scan.error" [("detail", e.text)]) "job"
      pure e.text

/-- A job, unless the lock is taken in this process or in another one. -/
def unlessLocked (body skipped : Job V Unit) : Job V Unit := do
  if ← call .locked then addLog "WARN" (.lm "scan.already_running" []) "job"
  else exceptWhen PyError.isLockNotAvailable (withScanLock body) fun _ => skipped

/-- `run_scan`. -/
def runScan : Job V Unit :=
  unlessLocked
    (jobRow "scan" (waitFor (runScanBody readInt)) PyError.isTimeout fun _ => do
      addLog "ERROR" (.text "Scan timeout (2h) — forcibly terminated") "job"
      pure "timeout")
    (call (.warnIfStarved "scan" "scan_interval_minutes" 360 "Scan de la médiathèque"))

/-- `run_scan_library`. -/
def runScanLibrary (libraryId : String) : Job V Unit :=
  unlessLocked
    (do
      libraryRow pyRepr libraryId none
      call .syncCollection
      call .sendPending)
    (pure ())

/-- `run_scan_libraries`. -/
def runScanLibraries (libraryIds : List String) : Job V Unit :=
  unlessLocked
    (Prog.finallyDo
      (exceptWhen PyError.isException
        (do
          let caches ← buildSharedCaches
          libraryIds.foldlM (fun _ id => libraryRow pyRepr id (some caches)) ())
        fun e => addLog "ERROR" (.lm "scan.error" [("detail", e.text)]) "scan")
      (do
        call .syncCollection
        call .sendPending))
    (pure ())

/-- The entry points. -/
inductive ScanJob
  | full
  | library (id : String)
  | libraries (ids : List String)
  deriving DecidableEq, Repr

/-- The program of an entry point. -/
def ScanJob.run : ScanJob → Job V Unit
  | full => runScan readInt
  | library id => runScanLibrary pyRepr id
  | libraries ids => runScanLibraries pyRepr ids

end Programs

end Hygie
