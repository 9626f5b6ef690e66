/-
**Torrents and requests.**

The last steps of a deletion tag or delete the torrents in qBittorrent, reached through a proxy or
directly, and delete the request in Seerr.

Main definitions:

* `qbitRequest` — one request, through the proxy first, with one fresh login after a refusal;
* `qbitFindByPath`, `qbitAddTag`, `qbitDeleteTorrent` — the torrent operations;
* `handleQbit` — what the configured action does to a torrent;
* `seerrDeleteRequest` — deleting the request.

Main results:

* `wp_handleQbit` — **a torrent operation** acts on the given hash and on no other.
-/

import Hygie.PyText
import Hygie.Schema
import Hygie.Wire

set_option relaxedAutoImplicit false
set_option autoImplicit false

namespace Hygie

open PyText

/-! ### qBittorrent -/

/-- `_login`: whether the session is authenticated. -/
def qbitLogin (url : String) : Act Bool := do
  try
    match ← send (.qbitLogin url) with
    | .ok authenticated => pure authenticated
    | .noContent => pure true
    | .failed _ => pure false
  catch _ => pure false

/-- `_try_url`: a refused request is sent once more after a login; an exception is no answer. -/
def tryUrl {α : Type} (cfg : Config) (sendTo : String → Act (Reply α)) (url : String) :
    Act (Option (Reply α)) := do
  try
    match ← sendTo url with
    | .failed 403 =>
        if cfg.qbitUser ≠ "" ∧ cfg.qbitPassword ≠ "" then do
          if ← qbitLogin url then
            let r ← sendTo url
            pure (some r)
          else pure (some (.failed 403))
        else pure (some (.failed 403))
    | r => pure (some r)
  catch _ => pure none

/-- `_request`: through the proxy first when there is one. -/
def qbitRequest {α : Type} (cfg : Config) (sendTo : String → Act (Reply α)) :
    Act (Option (Reply α)) :=
  let proxyUrl := rstripSlash cfg.qbitProxyUrl
  let directUrl := rstripSlash cfg.qbitUrl
  if proxyUrl = "" ∧ directUrl = "" then pure none
  else if proxyUrl ≠ "" then do
    match ← tryUrl cfg sendTo proxyUrl with
    | some r => pure (some r)
    | none =>
        if directUrl ≠ "" ∧ directUrl ≠ proxyUrl then tryUrl cfg sendTo directUrl else pure none
  else tryUrl cfg sendTo directUrl

/-- Where the content of a torrent lies: its content path or, without one, its name below the
folder it is saved in. -/
def Torrent.effective (t : Torrent) : String :=
  let savePath := rstripSlash t.savePath
  let contentPath := rstripSlash t.contentPath
  if contentPath ≠ "" then contentPath
  else if savePath ≠ "" ∧ t.name ≠ "" then savePath ++ "/" ++ t.name else ""

/-- A file is the content of the torrent, or lies in its folder. -/
def Torrent.contains (filePath : String) (t : Torrent) : Bool :=
  t.effective ≠ "" &&
    (filePath == t.effective || startsWith filePath (t.effective ++ "/"))

/-- `qbit_find_by_path`. -/
def qbitFindByPath (cfg : Config) (filePath : String) : Act (Option String) :=
  if filePath = "" then pure none
  else do
    match ← qbitRequest cfg fun url => send (.qbitTorrents url) with
    | some (.ok torrents) =>
        pure ((torrents.find? (Torrent.contains filePath)).map fun t => cfg.lower t.hash)
    | _ => pure none

/-- A request that changes qBittorrent. -/
def qbitPost (cfg : Config) (op : QbitOp) : Act (Option (Reply Unit)) :=
  qbitRequest cfg fun url => send (.qbit url op)

/-- Whether there was an answer and it was a success. -/
def answered (r : Option (Reply Unit)) : Bool := r.any Reply.succeeded

/-- `qbit_add_tag`. -/
def qbitAddTag (cfg : Config) (torrentHash tag : String) : Act Bool :=
  if torrentHash = "" ∨ tag = "" then pure false
  else do
    let _ ← qbitPost cfg (.createTags tag)
    let r ← qbitPost cfg (.addTags torrentHash tag)
    pure (answered r)

/-- `qbit_delete_torrent`. -/
def qbitDeleteTorrent (cfg : Config) (torrentHash : String) (deleteFiles : Bool) : Act Bool :=
  if torrentHash = "" then pure false
  else do
    let r ← qbitPost cfg (.delete torrentHash deleteFiles)
    pure (answered r)

/-- `_handle_qbit`: what the configured action does to a torrent; failures are only logged. -/
def handleQbit (cfg : Config) (torrentHash qbitAction qbitTag : String) : Act Unit := do
  try
    if qbitAction = "delete_torrent" ∨ qbitAction = "delete_files" then
      let _ ← qbitDeleteTorrent cfg torrentHash true
      pure ()
    else
      let _ ← qbitAddTag cfg torrentHash qbitTag
      pure ()
  catch _ => pure ()

/-! ### Seerr -/

/-- `_seerr_config`. -/
def seerrConfig (cfg : Config) : String × String := (rstripSlash cfg.seerrUrl, cfg.seerrApiKey)

/-- `seerr_delete_request`. -/
def seerrDeleteRequest (cfg : Config) (mediaId : ℤ) : Act Bool :=
  let creds := seerrConfig cfg
  if creds.1 ≠ "" ∧ creds.2 ≠ "" ∧ mediaId ≠ 0 then do
    try
      let r ← send (.seerrDelete creds.1 creds.2 mediaId)
      pure r.succeeded
    catch _ => pure false
  else pure false

/-! ### What they can do -/

/-- The torrent that an operation is about. -/
def QbitOp.hash : QbitOp → Option String
  | createTags _ => none
  | addTags hash _ => some hash
  | delete hash _ => some hash

variable {holds : ∀ q : Query, q.Body → Prop} {P : Query → Prop} {C : Prop} {cfg : Config}

section Rules

variable (hP : ∀ q : Query, q.touches = false → P q)

include hP

/-- A request to qBittorrent may have any answer, or none, and never raises. -/
theorem wp_qbitRequest {α : Type} {sendTo : String → Act (Reply α)}
    (hsend : ∀ url, Prog.Always (Permits holds) P (sendTo url)) {R : Option (Reply α) → Prop}
    (hR : ∀ r, R r) : Prog.wp (Permits holds) P (qbitRequest cfg sendTo) R fun _ => C := by
  have hlogin : ∀ url, Prog.Always (Permits holds) P (qbitLogin url) := fun url =>
    .tryCatch (.bind (always_send (.qbitLogin url) (hP _ rfl))
      fun r => by cases r <;> exact .pure _)
      fun _ => .pure _
  have htry : ∀ url {R : Option (Reply α) → Prop}, (∀ r, R r) →
      Prog.wp (Permits holds) P (tryUrl cfg sendTo url) R fun _ => C := by
    intro url R hR
    refine (Prog.wp_tryCatch _ _).2 (Prog.Always.wp (.bind (hsend url) fun r => ?_) hR fun _ =>
      (Prog.wp_pure _).2 (hR none))
    split
    · exact .ite (fun _ => .bind (hlogin url) fun ok => .ite
        (fun _ => .bind (hsend url) fun _ => .pure _) fun _ => .pure _) fun _ => .pure _
    · exact .pure _
  simp only [qbitRequest, Prog.wp_ite, Prog.wp_pure, Prog.wp_bind]
  refine ⟨fun _ => hR none, fun _ => ⟨fun _ => htry _ fun r => ?_, fun _ => htry _ hR⟩⟩
  cases r with
  | some r => exact (Prog.wp_pure _).2 (hR _)
  | none =>
      exact (Prog.wp_ite _ _ _).2 ⟨fun _ => htry _ hR, fun _ => (Prog.wp_pure _).2 (hR none)⟩

/-- Looking a torrent up by path may come back with anything, and never raises. -/
theorem wp_qbitFindByPath (filePath : String) {R : Option String → Prop} (hR : ∀ h, R h) :
    Prog.wp (Permits holds) P (qbitFindByPath cfg filePath) R fun _ => C := by
  simp only [qbitFindByPath, Prog.wp_ite, Prog.wp_pure, Prog.wp_bind]
  refine ⟨fun _ => hR none, fun _ => wp_qbitRequest hP
    (fun url => always_send (.qbitTorrents url) (hP _ rfl)) ?_⟩
  intro r
  split <;> exact (Prog.wp_pure _).2 (hR _)

/-- **A torrent operation** acts on the given hash and on no other, and never raises. -/
theorem wp_handleQbit {torrentHash : String} (qbitAction qbitTag : String)
    (hops : ∀ url op, op.hash = none ∨ op.hash = some torrentHash → P (.qbit url op))
    {R : Unit → Prop} (hR : R ()) :
    Prog.wp (Permits holds) P (handleQbit cfg torrentHash qbitAction qbitTag) R fun _ => C := by
  have hpost : ∀ op, op.hash = none ∨ op.hash = some torrentHash →
      Prog.Always (Permits holds) P (qbitPost cfg op) := fun op hop =>
    Prog.always_iff_wp.2 (wp_qbitRequest hP (fun url => always_send (.qbit url op)
      (hops url op hop)) fun _ => trivial)
  refine (Prog.wp_tryCatch _ _).2 (Prog.Always.wp (.ite (fun _ => ?_) fun _ => ?_) (fun _ => hR)
    fun _ => (Prog.wp_pure _).2 hR)
  · refine .bind (.ite (fun _ => .pure _) fun _ => .bind (hpost _ (.inr rfl)) fun _ => .pure _)
      fun _ => .pure _
  · refine .bind (.ite (fun _ => .pure _) fun _ => .bind (hpost _ (.inl rfl)) fun _ =>
      .bind (hpost _ (.inr rfl)) fun _ => .pure _) fun _ => .pure _

end Rules

end Hygie
