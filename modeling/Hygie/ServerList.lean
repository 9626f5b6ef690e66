/-
**The list of media servers, read and written back as a whole.**

All media servers are one JSON value in the settings.  Whoever changes one of them reads the list,
changes it and writes it back.  A worker reads it at most every thirty seconds and keeps the list
object in between; requests of one worker get the same object and change it in place, so that they
see what the others have done to it, written or not.  When the value cannot be read they get the
last object of the worker, or an empty list.  The requests of all workers take their steps in any
order.

What is written back does away with everything that is stored by then and was not in the list as it
was read.

Main definitions:

* `Heap` — the dicts and the lists of a worker;
* `ServerTask`, `Phase`, `Site`, `Site.step` — the requests, and their steps;
* `ServerEdit.effect`, `standing` — what the requests amount to;
* `Site.Current` — the steps that write back a list in which nothing was missing;
* `Site.Kept` — the law: what was written stays until another request overwrites it.

Main results:

* `Site.phaseOk_change` — a change keeps what the list had;
* `Site.kept_of_run` — **no server is lost** in any run of such steps.
-/

import Hygie.GuardedRuns
import Hygie.ServerIds

set_option relaxedAutoImplicit false
set_option autoImplicit false

namespace Hygie

open PyText

/-! ### The list -/

/-- The keys of a server that the requests write, besides its identifier. -/
inductive ServerKey
  | name | url | apiKey | extUrl | type | enabled | serverUid
  deriving DecidableEq, Repr

inductive ServerValue
  | text (s : String)
  | flag (b : Bool)
  deriving DecidableEq, Repr

/-- Values for some keys. -/
abbrev ServerFields : Type := ServerKey → Option ServerValue

/-- A dict of the list. -/
structure ServerDict where
  id : Option String
  entries : ServerFields

/-- Assignments to the keys of a dict. -/
def ServerDict.assign (server : ServerDict) (fields : ServerFields) : ServerDict :=
  { server with entries := fun key => (fields key).or (server.entries key) }

/-- `MediaServerBody`. -/
structure MediaServerBody where
  name : Option String := none
  url : Option String := none
  apiKey : Option String := none
  extUrl : Option String := none
  type : Option String := none
  enabled : Option Bool := none

section Body

-- `urlparse(val).scheme.lower()`, or nothing where `urlparse` raises
variable (scheme : String → Option String)

/-- `_validate_server_url`; nothing stands for an exception. -/
def validateServerUrl : Option String → Option String
  | none => some ""
  | some value =>
      let val := strip value
      if val = "" then none
      else if scheme val = some "http" ∨ scheme val = some "https" then some (rstripSlash val)
      else none

/-- The server that `add_media_server` appends to the servers with these identifiers. -/
def newServer (body : MediaServerBody) (ids : List (Option String)) : Option ServerDict :=
  match validateServerUrl scheme (some (body.url.getD "")),
    validateServerUrl scheme body.extUrl with
  | some url, some extUrl =>
      let newId := newServerId ids
      some
        { id := some newId
          entries := fun
            | .name => some (.text ((truthyText body.name).getD s!"Serveur {newId}"))
            | .url => some (.text url)
            | .apiKey => some (.text (body.apiKey.getD ""))
            | .extUrl => some (.text extUrl)
            | .type => some (.text (body.type.getD ""))
            | .enabled => some (.flag (body.enabled.getD true))
            | .serverUid => none }
  | _, _ => none

/-- The assignments that `update_media_server` makes one after the other; one without a value
raises. -/
def assignments (body : MediaServerBody) : List (ServerKey × Option ServerValue) :=
  let steps : List (Option (ServerKey × Option ServerValue)) :=
    [body.name.map fun v => (.name, some (.text v)),
      body.url.map fun v => (.url, (validateServerUrl scheme (some v)).map .text),
      (body.apiKey.filter (· ≠ "***")).map fun v => (.apiKey, some (.text v)),
      body.extUrl.map fun v => (.extUrl, (validateServerUrl scheme (some v)).map .text),
      body.type.map fun v => (.type, some (.text v)),
      body.enabled.map fun v => (.enabled, some (.flag v))]
  steps.reduceOption

/-- What the assignments leave, up to the one that raises. -/
def assigned (steps : List (ServerKey × Option ServerValue)) : ServerFields :=
  fun key => ((steps.takeWhile (·.2.isSome)).lookup key).join

end Body

/-! ### The objects of a worker -/

/-- The dicts and the lists of a worker, by their addresses. -/
structure Heap where
  dicts : ℕ → ServerDict
  lists : ℕ → List ℕ
  nextDict : ℕ
  nextList : ℕ
  lt_nextDict : ∀ l, ∀ r ∈ lists l, r < nextDict

namespace Heap

def empty : Heap where
  dicts _ := { id := none, entries := fun _ => none }
  lists _ := []
  nextDict := 0
  nextList := 0
  lt_nextDict := by simp

variable (h : Heap) (l : ℕ)

/-- The value of a list object. -/
def content : List ServerDict := (h.lists l).map h.dicts

/-- A new list object with new dicts, and its address. -/
def load (servers : List ServerDict) : Heap × ℕ :=
  ({ dicts := fun r =>
       if r < h.nextDict then h.dicts r else (servers[r - h.nextDict]?).getD (h.dicts r)
     lists := Function.update h.lists h.nextList
       ((List.range servers.length).map (h.nextDict + ·))
     nextDict := h.nextDict + servers.length
     nextList := h.nextList + 1
     lt_nextDict := by
       intro l r hr
       by_cases hl : l = h.nextList
       · rw [hl, Function.update_self] at hr
         obtain ⟨i, hi, rfl⟩ := List.mem_map.1 hr
         have hlt := List.mem_range.1 hi
         omega
       · rw [Function.update_of_ne hl] at hr
         have hlt := h.lt_nextDict l r hr
         omega },
    h.nextList)

/-- `servers.append(server)`. -/
def append (server : ServerDict) : Heap where
  dicts := Function.update h.dicts h.nextDict server
  lists := Function.update h.lists l (h.lists l ++ [h.nextDict])
  nextDict := h.nextDict + 1
  nextList := h.nextList
  lt_nextDict := by
    intro l' r hr
    by_cases hl : l' = l
    · rw [hl, Function.update_self] at hr
      rcases List.mem_append.1 hr with hr | hr
      · exact (h.lt_nextDict l r hr).trans (Nat.lt_succ_self _)
      · rw [List.mem_singleton.1 hr]
        exact Nat.lt_succ_self _
    · rw [Function.update_of_ne hl] at hr
      exact (h.lt_nextDict l' r hr).trans (Nat.lt_succ_self _)

/-- Assignments to the dicts of a list whose identifier is meant. -/
def assignAll (target : Option String → Bool) (fields : ServerFields) : Heap :=
  { h with
    dicts := fun r =>
      if r ∈ h.lists l ∧ target (h.dicts r).id = true then (h.dicts r).assign fields
      else h.dicts r }

/-- Assignments to the first of them. -/
def assignFirst (target : Option String → Bool) (fields : ServerFields) : Heap :=
  match (h.lists l).find? fun r => target (h.dicts r).id with
  | none => h
  | some first => { h with dicts := Function.update h.dicts first ((h.dicts first).assign fields) }

/-- A new list object without the dicts that are meant, and its address. -/
def without (target : Option String → Bool) : Heap × ℕ :=
  ({ h with
     lists := Function.update h.lists h.nextList
       ((h.lists l).filter fun r => !target (h.dicts r).id)
     nextList := h.nextList + 1
     lt_nextDict := by
       intro l' r hr
       by_cases hl : l' = h.nextList
       · rw [hl, Function.update_self] at hr
         exact h.lt_nextDict l r (List.mem_of_mem_filter hr)
       · rw [Function.update_of_ne hl] at hr
         exact h.lt_nextDict l' r hr },
    h.nextList)

end Heap

/-! ### The requests -/

/-- The requests, with what a media server answers to them, and any other reader of the list. -/
inductive ServerTask
  | add (body : MediaServerBody)
  | update (id : String) (body : MediaServerBody)
  | delete (id : String)
  /-- `ensure_server_uid`; without `uid` it saves nothing. -/
  | ensureUid (id : String) (uid : Option String)
  /-- `test_connection`, after the server has answered. -/
  | testConnection (id : String) (type : String) (uid : Option String)
  | read

/-- What a request amounts to. -/
inductive ServerEdit
  | add (server : ServerDict)
  | set (target : Option String → Bool) (fields : ServerFields)
  | delete (target : Option String → Bool)

/-- Where a request stands. -/
inductive Phase
  /-- Before `get_media_servers`. -/
  | reading
  /-- The value has been read from the database, at this time. -/
  | fetched (value : Option (List ServerDict)) (now : ℕ)
  /-- `get_media_servers` has returned a list object. -/
  | holding (l : ℕ)
  /-- `ensure_server_uid` waits for the server. -/
  | asking (l : ℕ)
  /-- In `save_media_servers`: what the list was and what it has become. -/
  | saving (l : ℕ) (edit : ServerEdit) (read raw : List ServerDict)
  /-- The value is committed. -/
  | saved (l : ℕ) (edit : ServerEdit)
  | answered (edit : Option ServerEdit)
  | failed

/-- A worker: its objects, and the cached list with its time. -/
structure Worker where
  heap : Heap
  cache : Option ℕ
  cachedAt : ℕ

structure ServerRequest where
  worker : ℕ
  task : ServerTask
  phase : Phase

/-- The stored value, the workers and the requests; the history has what was written, the latest
first, with the number of the request. -/
structure Site where
  stored : Option (List ServerDict)
  clock : ℕ
  workers : ℕ → Worker
  requests : ℕ → Option ServerRequest
  history : List (ℕ × ServerEdit)

/-- The steps of a request. -/
inductive ServerMove
  | useCache | fetch | install | failRead | change | commit | finish | fail
  deriving DecidableEq, Repr

inductive SiteAction
  | tick (seconds : ℕ)
  | begin (r : ℕ) (worker : ℕ) (task : ServerTask)
  | advance (r : ℕ) (move : ServerMove)

/-- `str(s.get("id", "")) == str(server_id)`. -/
def isNamedOrEmpty (id : String) (server : Option String) : Bool := server.getD "" = id

/-- The fields that the tests of a connection learn. -/
def learned (type : Option String) (uid : Option String) : ServerFields
  | .type => type.map .text
  | .serverUid => (truthyText uid).map .text
  | _ => none

namespace Site

variable (scheme : String → Option String)

/-- The servers that are stored. -/
def servers (s : Site) : List ServerDict := s.stored.getD []

def setWorker (s : Site) (w : ℕ) (worker : Worker) : Site :=
  { s with workers := Function.update s.workers w worker }

def setPhase (s : Site) (r : ℕ) (req : ServerRequest) (phase : Phase) : Site :=
  { s with requests := Function.update s.requests r (some { req with phase := phase }) }

/-- The cached list of a worker, unless it is too old. -/
def freshCache (s : Site) (w : ℕ) : Option ℕ :=
  (s.workers w).cache.filter fun _ => s.clock - (s.workers w).cachedAt < 30

/-- What a request does to the list that it got: the objects afterwards, and where it stands. -/
def change (h : Heap) (l : ℕ) : ServerTask → Heap × Phase
  | .add body =>
      match newServer scheme body ((h.content l).map (·.id)) with
      | none => (h, .failed)
      | some server =>
          let h' := h.append l server
          (h', .saving l (.add server) (h.content l) (h'.content l))
  | .update id body =>
      let steps := assignments scheme body
      let target := Registry.isNamed id
      if (h.content l).any (fun server => target server.id) && steps.any (·.2.isNone) then
        (h.assignFirst l target (assigned steps), .failed)
      else
        let h' := h.assignAll l target (assigned steps)
        (h', .saving l (.set target (assigned steps)) (h.content l) (h'.content l))
  | .delete id =>
      let (h', l') := h.without l (Registry.isNamed id)
      (h', .saving l' (.delete (Registry.isNamed id)) (h.content l) (h'.content l'))
  | .ensureUid id uid =>
      match (h.content l).find? (fun server => isNamedOrEmpty id server.id), truthyText uid with
      | some server, some uid =>
          -- the dict that was found is still the first: lists grow at the end, identifiers stay
          let h' := h.assignFirst l (isNamedOrEmpty id) (learned none (some uid))
          (h', .saving l (.set (fun other => other = server.id) (learned none (some uid)))
            (h.content l) (h'.content l))
      | _, _ => (h, .answered none)
  | .testConnection id type uid =>
      if (h.content l).any fun server => isNamedOrEmpty id server.id then
        let h' := h.assignAll l (isNamedOrEmpty id) (learned (some type) uid)
        (h', .saving l (.set (isNamedOrEmpty id) (learned (some type) uid)) (h.content l)
          (h'.content l))
      else (h, .answered none)
  | .read => (h, .answered none)

/-- `ensure_server_uid` asks the server: the first one of that name has no `server_uid` yet. -/
def asks (h : Heap) (l : ℕ) (id : String) : Bool :=
  match (h.content l).find? fun server => isNamedOrEmpty id server.id with
  | none => false
  | some server => server.entries .serverUid = none || server.entries .serverUid = some (.text "")

/-- `get_media_servers` after an exception: the last list of the worker, or an empty one. -/
def afterFailure (s : Site) (r : ℕ) (req : ServerRequest) : Site :=
  let worker := s.workers req.worker
  match worker.cache with
  | some l => s.setPhase r req (.holding l)
  | none =>
      let (heap, l) := worker.heap.load []
      (s.setWorker req.worker { worker with heap := heap }).setPhase r req (.holding l)

/-- A request takes a step. -/
def advance (s : Site) (r : ℕ) (req : ServerRequest) (move : ServerMove) : Option Site :=
  let worker := s.workers req.worker
  match req.phase, move with
  | .reading, .useCache => (s.freshCache req.worker).map fun l => s.setPhase r req (.holding l)
  | .reading, .fetch =>
      if (s.freshCache req.worker).isSome then none
      else some (s.setPhase r req (.fetched s.stored s.clock))
  | .fetched (some value) now, .install =>
      let (heap, l) := worker.heap.load value
      let loaded := { heap := heap, cache := some l, cachedAt := now }
      some ((s.setWorker req.worker loaded).setPhase r req (.holding l))
  | .fetched none now, .install =>
      -- no value: an empty list for the cache, and another one for the caller
      let (heap, cached) := worker.heap.load []
      let (heap, l) := heap.load []
      let loaded := { heap := heap, cache := some cached, cachedAt := now }
      some ((s.setWorker req.worker loaded).setPhase r req (.holding l))
  | .reading, .failRead =>
      if (s.freshCache req.worker).isSome then none else some (s.afterFailure r req)
  | .fetched _ _, .failRead => some (s.afterFailure r req)
  | .holding l, .change =>
      match req.task with
      | .ensureUid id _ =>
          some (s.setPhase r req (if asks worker.heap l id then .asking l else .answered none))
      | task =>
          let (heap, phase) := change scheme worker.heap l task
          some ((s.setWorker req.worker { worker with heap := heap }).setPhase r req phase)
  | .asking l, .change =>
      let (heap, phase) := change scheme worker.heap l req.task
      some ((s.setWorker req.worker { worker with heap := heap }).setPhase r req phase)
  | .saving l edit _ raw, .commit =>
      some
        { s.setPhase r req (.saved l edit) with
          stored := some raw
          history := (r, edit) :: s.history }
  | .saved l edit, .finish =>
      let refreshed := { worker with cache := some l, cachedAt := s.clock }
      some ((s.setWorker req.worker refreshed).setPhase r req (.answered (some edit)))
  | .saving .., .fail | .saved .., .fail => some (s.setPhase r req .failed)
  | _, _ => none

/-- The step function; `add_media_server` refuses a wrong URL before it reads the list. -/
def step (s : Site) : SiteAction → Option Site
  | .tick seconds => some { s with clock := s.clock + seconds }
  | .begin r worker task =>
      match s.requests r with
      | some _ => none
      | none =>
          let phase : Phase :=
            match task with
            | .add body => if (newServer scheme body []).isSome then .reading else .failed
            | _ => .reading
          some (s.setPhase r { worker := worker, task := task, phase := .reading } phase)
  | .advance r move => (s.requests r).bind fun req => s.advance scheme r req move

/-- Nobody has sent a request yet. -/
def start (stored : Option (List ServerDict)) (clock : ℕ) (workers : ℕ → Worker) : Site where
  stored := stored
  clock := clock
  workers := workers
  requests _ := none
  history := []

end Site

/-! ### The law -/

/-- What can be said of a list: a server is in it, and has a value. -/
inductive ServerFact
  | present (id : Option String)
  | field (id : Option String) (key : ServerKey) (value : ServerValue)

/-- What a list says. -/
def facts (servers : List ServerDict) : Set ServerFact
  | .present id => ∃ server ∈ servers, server.id = id
  | .field id key value => ∃ server ∈ servers, server.id = id ∧ server.entries key = some value

/-- What holds after an edit: an assignment reaches a server that is there. -/
def ServerEdit.effect (F : Set ServerFact) : ServerEdit → Set ServerFact
  | .add server => F ∪ facts [server]
  | .set target fields => fun
      | .present id => .present id ∈ F
      | .field id key value =>
          if target id = true ∧ (fields key).isSome = true then
            fields key = some value ∧ .present id ∈ F
          else .field id key value ∈ F
  | .delete target => fun
      | .present id => target id = false ∧ .present id ∈ F
      | .field id key value => target id = false ∧ .field id key value ∈ F

/-- What stands after a history, the latest edit first: what was said last about each server and
each of its values. -/
def standing (F : Set ServerFact) (history : List (ℕ × ServerEdit)) : Set ServerFact :=
  history.foldr (fun entry F => entry.2.effect F) F

namespace Site

/-- A request that saves the list has read everything that is stored by then. -/
def Current (s : Site) : SiteAction → Prop
  | .advance r .commit => ∀ worker task l edit read raw,
      s.requests r = some { worker := worker, task := task, phase := .saving l edit read raw } →
        facts s.servers ⊆ facts read
  | _ => True

/-- Every edit that was acknowledged is in the history, and all that stands after it is stored. -/
structure Kept (stored : Option (List ServerDict)) (s : Site) : Prop where
  committed : ∀ r worker task edit,
    s.requests r = some { worker := worker, task := task, phase := .answered (some edit) } →
      (r, edit) ∈ s.history
  standing : standing (facts (stored.getD [])) s.history ⊆ facts s.servers

end Site

/-! ### A change keeps what the list had -/

section Change

variable {h : Heap} {l : ℕ} {servers : List ServerDict} {server : ServerDict}
  {target : Option String → Bool} {fields : ServerFields} {F G : Set ServerFact} {edit : ServerEdit}

theorem mem_facts_present {id : Option String} :
    .present id ∈ facts servers ↔ ∃ server ∈ servers, server.id = id := Iff.rfl

theorem mem_facts_field {id : Option String} {key : ServerKey} {value : ServerValue} :
    .field id key value ∈ facts servers ↔
      ∃ server ∈ servers, server.id = id ∧ server.entries key = some value := Iff.rfl

theorem facts_append {servers' : List ServerDict} :
    facts (servers ++ servers') = facts servers ∪ facts servers' := by
  ext fact
  cases fact <;> simp [Set.mem_union, mem_facts_present, mem_facts_field, or_and_right, exists_or]

theorem mem_effect_set {id : Option String} {key : ServerKey} {value : ServerValue} :
    .field id key value ∈ (ServerEdit.set target fields).effect F ↔
      if target id = true ∧ (fields key).isSome = true then
        fields key = some value ∧ .present id ∈ F
      else .field id key value ∈ F := Iff.rfl

theorem ServerEdit.effect_mono (hFG : F ⊆ G) : edit.effect F ⊆ edit.effect G := by
  intro fact hfact
  cases edit with
  | add server => exact Set.union_subset_union_left _ hFG hfact
  | set target fields =>
      cases fact with
      | present id => exact hFG hfact
      | field id key value =>
          rw [mem_effect_set] at hfact ⊢
          split_ifs at hfact ⊢
          · exact ⟨hfact.1, hFG hfact.2⟩
          · exact hFG hfact
  | delete target => cases fact <;> exact ⟨hfact.1, hFG hfact.2⟩

/-- An edit of the list is sound if all that holds after it is said by the new value. -/
def Sound (edit : ServerEdit) (read raw : List ServerDict) : Prop :=
  edit.effect (facts read) ⊆ facts raw

theorem content_append : (h.append l server).content l = h.content l ++ [server] := by
  have hold : (h.lists l).map (Function.update h.dicts h.nextDict server) = h.content l :=
    List.map_congr_left fun r hr => Function.update_of_ne (h.lt_nextDict l r hr).ne ..
  simp only [Heap.content, Heap.append, Function.update_self, List.map_append, List.map_cons,
    List.map_nil]
  exact congrArg (· ++ [server]) hold

theorem content_without :
    (h.without l target).1.content (h.without l target).2 =
      (h.content l).filter fun server => !target server.id := by
  simp only [Heap.content, Heap.without, Function.update_self, List.filter_map]
  rfl

/-- Assignments to servers that are meant, and to at least one of each identifier that is. -/
theorem sound_set {dicts dicts' : ℕ → ServerDict} {refs : List ℕ}
    (hstep : ∀ r ∈ refs, dicts' r = dicts r ∨
      target (dicts r).id = true ∧ dicts' r = (dicts r).assign fields)
    (hreach : ∀ r ∈ refs, target (dicts r).id = true →
      ∃ r' ∈ refs, (dicts r').id = (dicts r).id ∧ dicts' r' = (dicts r').assign fields) :
    Sound (.set target fields) (refs.map dicts) (refs.map dicts') := by
  have hid : ∀ r ∈ refs, (dicts' r).id = (dicts r).id := by
    intro r hr
    rcases hstep r hr with h | ⟨_, h⟩ <;> rw [h]
    rfl
  intro fact hfact
  cases fact with
  | present id =>
      obtain ⟨server, hserver, rfl⟩ := mem_facts_present.1 hfact
      obtain ⟨r, hr, rfl⟩ := List.mem_map.1 hserver
      exact ⟨_, List.mem_map_of_mem hr, hid r hr⟩
  | field id key value =>
      rw [mem_effect_set] at hfact
      split_ifs at hfact with hset
      · -- the value that is assigned
        obtain ⟨hvalue, server, hserver, rfl⟩ := hfact
        obtain ⟨r, hr, rfl⟩ := List.mem_map.1 hserver
        obtain ⟨r', hr', heq, hassign⟩ := hreach r hr hset.1
        refine ⟨_, List.mem_map_of_mem hr', (hid r' hr').trans heq, ?_⟩
        simp [hassign, ServerDict.assign, hvalue]
      · -- a value that stays
        obtain ⟨server, hserver, rfl, hentry⟩ := hfact
        obtain ⟨r, hr, rfl⟩ := List.mem_map.1 hserver
        refine ⟨_, List.mem_map_of_mem hr, hid r hr, ?_⟩
        rcases hstep r hr with h | ⟨htarget, h⟩
        · rw [h, hentry]
        · have hnone : fields key = none := by simpa [htarget] using hset
          simp [h, ServerDict.assign, hnone, hentry]

theorem sound_assignAll :
    Sound (.set target fields) (h.content l) ((h.assignAll l target fields).content l) := by
  refine sound_set (fun r hr => ?_) fun r hr htarget => ⟨r, hr, rfl, ?_⟩
  · by_cases htarget : target (h.dicts r).id = true
    · exact .inr ⟨htarget, if_pos ⟨hr, htarget⟩⟩
    · exact .inl (if_neg fun hmeant => htarget hmeant.2)
  · exact if_pos ⟨hr, htarget⟩

/-- Assignments to the first server that is meant. -/
theorem sound_assignFirst
    (hfind : (h.content l).find? (fun server => target server.id) = some server) :
    Sound (.set (fun other => other = server.id) fields) (h.content l)
      ((h.assignFirst l target fields).content l) := by
  rw [Heap.content, List.find?_map] at hfind
  obtain ⟨first, hfirst, rfl⟩ := Option.map_eq_some_iff.1 hfind
  have hfirst' : (h.lists l).find? (fun r => target (h.dicts r).id) = some first := hfirst
  have hcontent : (h.assignFirst l target fields).content l =
      (h.lists l).map (Function.update h.dicts first ((h.dicts first).assign fields)) := by
    simp only [Heap.assignFirst, hfirst', Heap.content]
  rw [hcontent]
  refine sound_set (fun r _ => ?_) fun r _ htarget =>
    ⟨first, List.mem_of_find?_eq_some hfirst, (of_decide_eq_true htarget).symm,
    Function.update_self ..⟩
  by_cases hr : r = first
  · rw [hr]
    exact .inr ⟨decide_eq_true rfl, Function.update_self ..⟩
  · exact .inl (Function.update_of_ne hr ..)

theorem sound_append : Sound (.add server) (h.content l) ((h.append l server).content l) := by
  rw [content_append, Sound, facts_append]
  rfl

theorem sound_without :
    Sound (.delete target) (h.content l)
      ((h.without l target).1.content (h.without l target).2) := by
  rw [content_without]
  intro fact hfact
  cases fact with
  | present id =>
      obtain ⟨htarget, server, hserver, rfl⟩ := hfact
      exact ⟨server, List.mem_filter.2 ⟨hserver, by simp [htarget]⟩, rfl⟩
  | field id key value =>
      obtain ⟨htarget, server, hserver, rfl, hentry⟩ := hfact
      exact ⟨server, List.mem_filter.2 ⟨hserver, by simp [htarget]⟩, rfl, hentry⟩

end Change

namespace Site

variable {scheme : String → Option String} {s t : Site} {h : Heap} {l : ℕ} {task : ServerTask}
  {stored : Option (List ServerDict)} {clock : ℕ} {workers : ℕ → Worker} {as : List SiteAction}

/-- What is known of a request by where it stands. -/
def PhaseOk (history : List (ℕ × ServerEdit)) (r : ℕ) : Phase → Prop
  | .saving _ edit read raw => Sound edit read raw
  | .saved _ edit => (r, edit) ∈ history
  | .answered (some edit) => (r, edit) ∈ history
  | _ => True

/-- **A change keeps what the list had**, apart from what the request is about. -/
theorem phaseOk_change {history : List (ℕ × ServerEdit)} {r : ℕ} :
    PhaseOk history r (change scheme h l task).2 := by
  cases task with
  | add body =>
      simp only [change]
      split
      · trivial
      · exact sound_append
  | update id body =>
      simp only [change]
      split
      · trivial
      · exact sound_assignAll
  | delete id => exact sound_without
  | ensureUid id uid =>
      simp only [change]
      split
      · next server uid' hfind _ => exact sound_assignFirst hfind
      · trivial
  | testConnection id type uid =>
      simp only [change]
      split
      · exact sound_assignAll
      · trivial
  | read => trivial

/-! ### The steps -/

/-- A step of a request that commits nothing: where it stands is what it may be. -/
def Silent (s t : Site) (r : ℕ) (req : ServerRequest) : Prop :=
  t.stored = s.stored ∧ t.history = s.history ∧
    ∃ phase, t.requests = (s.setPhase r req phase).requests ∧
      (PhaseOk s.history r req.phase → PhaseOk s.history r phase)

theorem silent_afterFailure {r : ℕ} {req : ServerRequest} :
    Silent s (s.afterFailure r req) r req := by
  simp only [afterFailure]
  split
  · exact ⟨rfl, rfl, _, rfl, fun _ => trivial⟩
  · exact ⟨rfl, rfl, _, rfl, fun _ => trivial⟩

/-- **What a step of a request does**: it commits the list, or the stored value stays. -/
theorem advance_cases {r : ℕ} {req : ServerRequest} {move : ServerMove}
    (hstep : s.advance scheme r req move = some t) :
    (∃ l edit read raw, move = .commit ∧ req.phase = .saving l edit read raw ∧
      t = { s.setPhase r req (.saved l edit) with
            stored := some raw
            history := (r, edit) :: s.history }) ∨
    Silent s t r req := by
  obtain ⟨w, task, phase⟩ := req
  simp only [advance] at hstep
  split at hstep
  · -- the cached list
    obtain ⟨l, _, rfl⟩ := Option.map_eq_some_iff.1 hstep
    exact .inr ⟨rfl, rfl, _, rfl, fun _ => trivial⟩
  · split_ifs at hstep
    obtain rfl := Option.some.inj hstep
    exact .inr ⟨rfl, rfl, _, rfl, fun _ => trivial⟩
  · obtain rfl := Option.some.inj hstep
    exact .inr ⟨rfl, rfl, _, rfl, fun _ => trivial⟩
  · obtain rfl := Option.some.inj hstep
    exact .inr ⟨rfl, rfl, _, rfl, fun _ => trivial⟩
  · split_ifs at hstep
    obtain rfl := Option.some.inj hstep
    exact .inr silent_afterFailure
  · obtain rfl := Option.some.inj hstep
    exact .inr silent_afterFailure
  · -- the change
    split at hstep
    · obtain rfl := Option.some.inj hstep
      exact .inr ⟨rfl, rfl, _, rfl, fun _ => by split_ifs <;> trivial⟩
    · obtain rfl := Option.some.inj hstep
      exact .inr ⟨rfl, rfl, _, rfl, fun _ => phaseOk_change⟩
  · obtain rfl := Option.some.inj hstep
    exact .inr ⟨rfl, rfl, _, rfl, fun _ => phaseOk_change⟩
  · obtain rfl := Option.some.inj hstep
    exact .inl ⟨_, _, _, _, rfl, rfl, rfl⟩
  · obtain rfl := Option.some.inj hstep
    exact .inr ⟨rfl, rfl, _, rfl, id⟩
  · obtain rfl := Option.some.inj hstep
    exact .inr ⟨rfl, rfl, _, rfl, fun _ => trivial⟩
  · obtain rfl := Option.some.inj hstep
    exact .inr ⟨rfl, rfl, _, rfl, fun _ => trivial⟩
  · cases hstep

/-- Every request stands where it may, and all that stands after the history is stored. -/
structure Invariant (stored : Option (List ServerDict)) (s : Site) : Prop where
  requests : ∀ r req, s.requests r = some req → PhaseOk s.history r req.phase
  standing : Hygie.standing (facts (stored.getD [])) s.history ⊆ facts s.servers

theorem PhaseOk.cons {history : List (ℕ × ServerEdit)} {entry : ℕ × ServerEdit} {r : ℕ}
    {phase : Phase}
    (hphase : PhaseOk history r phase) : PhaseOk (entry :: history) r phase := by
  cases phase with
  | saving => exact hphase
  | saved => exact List.mem_cons_of_mem _ hphase
  | answered edit =>
      cases edit with
      | none => trivial
      | some edit => exact List.mem_cons_of_mem _ hphase
  | _ => trivial

/-- One request has moved, and the others stand where they may. -/
theorem phaseOk_setPhase {history : List (ℕ × ServerEdit)} {r r' : ℕ} {req req' : ServerRequest}
    {phase : Phase} (hold : ∀ r req, s.requests r = some req → PhaseOk history r req.phase)
    (hnew : PhaseOk history r phase) (hreq : (s.setPhase r req phase).requests r' = some req') :
    PhaseOk history r' req'.phase := by
  simp only [setPhase] at hreq
  by_cases hr : r' = r
  · rw [hr, Function.update_self] at hreq
    obtain rfl := Option.some.inj hreq
    rw [hr]
    exact hnew
  · rw [Function.update_of_ne hr] at hreq
    exact hold r' req' hreq

/-- **One step keeps the invariant**, if what it commits was read in full. -/
theorem invariant_step {a : SiteAction} (hinv : Invariant stored s) (hok : s.Current a)
    (hstep : s.step scheme a = some t) : Invariant stored t := by
  cases a with
  | tick seconds =>
      obtain rfl := Option.some.inj hstep
      exact ⟨hinv.requests, hinv.standing⟩
  | begin r worker task =>
      simp only [step] at hstep
      split at hstep
      · cases hstep
      · obtain rfl := Option.some.inj hstep
        refine ⟨fun r' req' hreq => phaseOk_setPhase hinv.requests ?_ hreq, hinv.standing⟩
        split
        · split_ifs <;> trivial
        · trivial
  | advance r move =>
      obtain ⟨req, hreq, hadvance⟩ := Option.bind_eq_some_iff.1 hstep
      rcases advance_cases hadvance with ⟨l, edit, read, raw, rfl, hphase, rfl⟩ | hsilent
      · have hsound : Sound edit read raw := by
          have hbefore := hinv.requests r req hreq
          rwa [hphase] at hbefore
        have hread : facts s.servers ⊆ facts read :=
          hok req.worker req.task l edit read raw (by rw [hreq, ← hphase])
        refine ⟨fun r' req' hreq' => phaseOk_setPhase (s := s) (fun r req hreq => ?_) ?_ hreq', ?_⟩
        · exact (hinv.requests r req hreq).cons
        · exact List.mem_cons_self ..
        · -- what stands was stored, so it was read, and the change has kept it
          calc edit.effect (Hygie.standing (facts (stored.getD [])) s.history)
              ⊆ edit.effect (facts s.servers) := ServerEdit.effect_mono hinv.standing
            _ ⊆ edit.effect (facts read) := ServerEdit.effect_mono hread
            _ ⊆ facts raw := hsound
      · obtain ⟨hstored, hhistory, phase, hrequests, hnew⟩ := hsilent
        refine ⟨fun r' req' hreq' => ?_, ?_⟩
        · rw [hrequests] at hreq'
          rw [hhistory]
          exact phaseOk_setPhase hinv.requests (hnew (hinv.requests r req hreq)) hreq'
        · rw [hhistory, servers, hstored]
          exact hinv.standing

/-- **No server is lost**: in every run in which each request that saves the list has read
everything that is stored by then, what was acknowledged is in the history, and all that stands
after the history is stored. -/
theorem kept_of_run
    (hrun : GuardedRun (step scheme) Current (start stored clock workers) as s) :
    s.Kept stored := by
  have hstart : Invariant stored (start stored clock workers) :=
    ⟨fun _ _ hreq => (nomatch hreq), subset_rfl⟩
  have hinv := hrun.invariant hstart fun _ _ _ h hok hstep => invariant_step h hok hstep
  exact ⟨fun r worker task edit hreq => hinv.requests r _ hreq, hinv.standing⟩

/-! ### A server that is added, and lost by a change of its name -/

/-- `urlparse` on the address below. -/
def sampleScheme (url : String) : Option String :=
  if startsWith url "http://" then some "http" else some ""

/-- A worker that has just started. -/
def newWorker : Worker where
  heap := Heap.empty
  cache := none
  cachedAt := 0

/-- The first worker adds a server. -/
def addActions : List SiteAction :=
  [.begin 0 0 (.add { name := some "Emby", url := some "http://emby:8096" }), .advance 0 .fetch,
    .advance 0 .install, .advance 0 .change, .advance 0 .commit, .advance 0 .finish]

/-- Another worker cannot read the value when it renames the server. -/
def renameActions : List SiteAction :=
  [.begin 1 1 (.update "0" { name := some "Salon" }), .advance 1 .failRead, .advance 1 .change,
    .advance 1 .commit, .advance 1 .finish]

/-- Nothing is missing while nothing is stored. -/
theorem current_of_nil {a : SiteAction} (hnil : s.servers = []) : s.Current a := by
  cases a with
  | advance r move =>
      cases move with
      | commit =>
          intro _ _ _ _ read _ _ fact hfact
          rw [hnil] at hfact
          cases fact <;> exact absurd hfact (by simp [mem_facts_present, mem_facts_field])
      | _ => trivial
  | _ => trivial

/-- Another worker renames the server, with the list that it has read. -/
def refreshActions : List SiteAction :=
  [.begin 1 1 (.update "0" { name := some "Salon" }), .advance 1 .fetch, .advance 1 .install,
    .advance 1 .change, .advance 1 .commit, .advance 1 .finish]

/-- A server is added by one worker and renamed by another one. -/
theorem kept_of_run_add :
    ∃ s, GuardedRun (step sampleScheme) Current (start (some []) 0 fun _ => newWorker)
        (addActions ++ refreshActions) s ∧ s.Kept (some []) := by
  have hrun : ∃ s, GuardedRun (step sampleScheme) Current (start (some []) 0 fun _ => newWorker)
      (addActions ++ refreshActions) s := by
    refine ⟨_, .cons trivial rfl (.cons trivial rfl (.cons trivial rfl (.cons trivial rfl
      (.cons (current_of_nil rfl) rfl (.cons trivial rfl (.cons trivial rfl (.cons trivial rfl
        (.cons trivial rfl (.cons trivial rfl (.cons ?_ rfl (.cons trivial rfl .nil)))))))))))⟩
    -- what the second worker has read is what is stored
    intro _ _ _ _ _ _ hreq fact hfact
    cases hreq
    exact hfact
  obtain ⟨s, hrun⟩ := hrun
  exact ⟨s, hrun, kept_of_run hrun⟩

theorem isSome_runAll :
    (runAll (step sampleScheme) (start (some []) 0 fun _ => newWorker)
      (addActions ++ renameActions)).isSome = true := by decide +kernel

/-- A change of the name after a failed read writes back an empty list. -/
theorem not_kept_failedRead :
    ¬ ∀ (scheme : String → Option String) stored clock workers as s,
      GuardedRun (step scheme) (fun _ _ => True) (start stored clock workers) as s →
        s.Kept stored := by
  intro hclaim
  have hkept := hclaim _ _ _ _ _ _ (GuardedRun.of_runAll (Option.some_get isSome_runAll).symm)
  have hstands : .present (some "0") ∈ Hygie.standing (facts [])
      (Option.get _ isSome_runAll).history :=
    Or.inr ⟨_, List.mem_singleton_self _, rfl⟩
  have hempty : (Option.get _ isSome_runAll).servers.length = 0 := by decide +kernel
  obtain ⟨server, hserver, _⟩ := hkept.standing hstands
  rw [List.eq_nil_of_length_eq_zero hempty] at hserver
  cases hserver

end Site

end Hygie
