/-
**A failed change of a media server.**

The handlers that add and update a media server change the very list that the process keeps for
thirty seconds.  A request that ends in an error, because a URL is refused or the list cannot be
saved, leaves the stored value alone, but nothing takes back what it has done to the list: the
process goes on with a server that was never saved, or with half of an update.

What the process answers later depends on the value of its list only, so that a process can be
followed as a cache of values.

Main definitions:

* `Process`, `Process.getMediaServers`, `Process.reads` — a process, and what it answers later;
* `Process.request` — a request that adds or updates a server;
* `CacheView` — a cache of values;
* `Process.AllOrNothing` — a failed request has no effect.

Main results:

* `view_getMediaServers`, `reads_eq` — **the process is a cache of values**;
* `allOrNothing_iff` — **exactly when a failed request has no effect**.
-/

import Hygie.ServerList

set_option relaxedAutoImplicit false
set_option autoImplicit false

namespace Hygie

/-! ### A process -/

/-- A process with the stored value and the time. -/
structure Process where
  stored : Option (List ServerDict)
  clock : ℕ
  worker : Worker

namespace Process

/-- The cached list, unless it is too old. -/
def freshCache (p : Process) : Option ℕ :=
  p.worker.cache.filter fun _ => p.clock - p.worker.cachedAt < 30

/-- `get_media_servers`: the process afterwards, and the list object that is returned.  An error
while the value is read is no error of the call. -/
def getMediaServers (p : Process) (fails : Bool) : Process × ℕ :=
  match p.freshCache with
  | some l => (p, l)
  | none =>
      if fails then
        match p.worker.cache with
        | some l => (p, l)
        | none =>
            let (heap, l) := p.worker.heap.load []
            ({ p with worker := { p.worker with heap := heap } }, l)
      else
        match p.stored with
        | some value =>
            let (heap, l) := p.worker.heap.load value
            ({ p with worker := { heap := heap, cache := some l, cachedAt := p.clock } }, l)
        | none =>
            -- no value: an empty list for the cache, and another one for the caller
            let (heap, cached) := p.worker.heap.load []
            let (heap, l) := heap.load []
            ({ p with worker := { heap := heap, cache := some cached, cachedAt := p.clock } }, l)

/-- Time passes. -/
def wait (p : Process) (seconds : ℕ) : Process := { p with clock := p.clock + seconds }

/-- What later calls of `get_media_servers` return, each after some seconds. -/
def reads (p : Process) : List (ℕ × Bool) → List (List ServerDict)
  | [] => []
  | (seconds, fails) :: later =>
      let (p', l) := (p.wait seconds).getMediaServers fails
      p'.worker.heap.content l :: p'.reads later

end Process

/-! ### The requests -/

/-- `add_media_server` and `update_media_server`. -/
inductive ServerUpdate
  | add (body : MediaServerBody)
  | update (id : String) (body : MediaServerBody)

/-- How a request ends. -/
inductive Ending
  | done
  | error
  deriving DecidableEq, Repr

namespace ServerUpdate

def task : ServerUpdate → ServerTask
  | add body => .add body
  | update id body => .update id body

variable (scheme : String → Option String)

/-- `add_media_server` refuses a wrong URL before it reads the list. -/
def refused : ServerUpdate → Bool
  | add body => (newServer scheme body []).isNone
  | update .. => false

end ServerUpdate

namespace Process

variable (scheme : String → Option String)

/-- `save_media_servers`; a save that fails commits nothing. -/
def save (p : Process) (l : ℕ) (fails : Bool) : Process × Ending :=
  if fails then (p, .error)
  else
    ({ p with
       stored := some (p.worker.heap.content l)
       worker := { p.worker with cache := some l, cachedAt := p.clock } }, .done)

/-- A request, from the read of the list to its save. -/
def request (p : Process) (u : ServerUpdate) (readFails saveFails : Bool) : Process × Ending :=
  if u.refused scheme then (p, .error)
  else
    let (q, l) := p.getMediaServers readFails
    let (heap, phase) := Site.change scheme q.worker.heap l u.task
    let q' : Process := { q with worker := { q.worker with heap := heap } }
    match phase with
    | .saving l' _ _ _ => q'.save l' saveFails
    | _ => (q', .error)

/-- The process when the request has read the list, if it does. -/
def before (p : Process) (u : ServerUpdate) (readFails : Bool) : Process :=
  if u.refused scheme then p else (p.getMediaServers readFails).1

/-- A request that ends in an error leaves the stored value, and every later call returns what it
would have returned without the request. -/
structure AllOrNothing (p : Process) (u : ServerUpdate) (readFails : Bool) : Prop where
  stored : (p.request scheme u readFails true).1.stored = p.stored
  reads : ∀ later, (p.request scheme u readFails true).1.reads later =
    (p.before scheme u readFails).reads later

/-! ### When it has no effect -/

/-- The call returns the cached list itself. -/
def HandsOutCache (p : Process) (readFails : Bool) : Prop :=
  p.freshCache.isSome = true ∨ (readFails = true ∧ p.worker.cache.isSome = true) ∨
    (readFails = false ∧ p.stored.isSome = true)

/-- The servers that the request finds. -/
def found (p : Process) (readFails : Bool) : List ServerDict :=
  match p.freshCache with
  | some l => p.worker.heap.content l
  | none =>
      if readFails then (p.worker.cache.map p.worker.heap.content).getD [] else p.stored.getD []

end Process

/-- The servers of that name which an update changes: the first, if a URL is refused. -/
def updatedServers (scheme : String → Option String) (id : String) (body : MediaServerBody)
    (servers : List ServerDict) : List ServerDict :=
  let named := servers.filter fun server => Registry.isNamed id server.id
  if (assignments scheme body).any (·.2.isNone) then named.take 1 else named

/-- The request changes no server: it is an update whose values, up to a URL that is refused, are
there. -/
def ServerUpdate.Idle (scheme : String → Option String) (servers : List ServerDict) :
    ServerUpdate → Prop
  | add _ => False
  | update id body => ∀ server ∈ updatedServers scheme id body servers, ∀ key value,
      assigned (assignments scheme body) key = some value → server.entries key = some value

/-! ### A cache of values -/

/-- A process without its objects. -/
structure CacheView where
  stored : Option (List ServerDict)
  clock : ℕ
  cached : Option (List ServerDict)
  cachedAt : ℕ

namespace CacheView

/-- `get_media_servers`, by values. -/
def read (v : CacheView) (fails : Bool) : CacheView × List ServerDict :=
  match v.cached.filter fun _ => v.clock - v.cachedAt < 30 with
  | some servers => (v, servers)
  | none =>
      if fails then (v, v.cached.getD [])
      else ({ v with cached := some (v.stored.getD []), cachedAt := v.clock }, v.stored.getD [])

def reads (v : CacheView) : List (ℕ × Bool) → List (List ServerDict)
  | [] => []
  | (seconds, fails) :: later =>
      let (v', servers) := { v with clock := v.clock + seconds }.read fails
      servers :: v'.reads later

end CacheView

/-- What a process answers by. -/
def Process.view (p : Process) : CacheView where
  stored := p.stored
  clock := p.clock
  cached := p.worker.cache.map p.worker.heap.content
  cachedAt := p.worker.cachedAt

section Values

variable {p q : Process} {h : Heap} {l : ℕ} {fails : Bool} {servers : List ServerDict}

/-- A list object that was just made. -/
theorem content_load : (h.load servers).1.content (h.load servers).2 = servers := by
  have hlist : (h.load servers).1.lists (h.load servers).2 =
      (List.range servers.length).map (h.nextDict + ·) := Function.update_self ..
  rw [Heap.content, hlist, List.map_map]
  refine List.ext_getElem (by simp) fun i hi hi' => ?_
  have hlt : ¬ h.nextDict + i < h.nextDict := by omega
  rw [List.getElem_map, List.getElem_range, Function.comp_apply]
  simp only [Heap.load, if_neg hlt, Nat.add_sub_cancel_left, List.getElem?_eq_getElem hi',
    Option.getD_some]

/-- The other list objects are as they were. -/
theorem content_load_of_ne (hl : l ≠ h.nextList) : (h.load servers).1.content l = h.content l := by
  have hlist : (h.load servers).1.lists l = h.lists l := Function.update_of_ne hl ..
  rw [Heap.content, hlist]
  exact List.map_congr_left fun r hr => if_pos (h.lt_nextDict l r hr)

theorem view_freshCache : (p.view.cached.filter fun _ => p.view.clock - p.view.cachedAt < 30) =
    p.freshCache.map p.worker.heap.content := by
  rw [Process.view, Process.freshCache]
  cases p.worker.cache with
  | none => rfl
  | some l =>
      rw [Option.map_some, Option.filter_some, Option.filter_some]
      split_ifs <;> rfl

/-- **A call is a read of the cache of values.** -/
theorem view_getMediaServers (p : Process) (fails : Bool) :
    (p.getMediaServers fails).1.view = (p.view.read fails).1 ∧
      (p.getMediaServers fails).1.worker.heap.content (p.getMediaServers fails).2 =
        (p.view.read fails).2 := by
  rw [CacheView.read, view_freshCache, Process.getMediaServers]
  cases p.freshCache with
  | some l => exact ⟨rfl, rfl⟩
  | none =>
      cases fails with
      | true =>
          have hcached : p.view.cached = p.worker.cache.map p.worker.heap.content := rfl
          cases hcache : p.worker.cache with
          | some l =>
              rw [hcache] at hcached
              refine ⟨rfl, ?_⟩
              simp only [Option.map_none, if_true, hcached, Option.map_some, Option.getD_some]
          | none =>
              rw [hcache] at hcached
              simp only [Option.map_none, if_true, hcached, Option.getD_none]
              exact ⟨by simp only [Process.view, hcache, Option.map_none], content_load⟩
      | false =>
          have hstored : p.view.stored = p.stored := rfl
          cases hvalue : p.stored with
          | some value =>
              simp only [Option.map_none, Bool.false_eq_true, if_false, hstored, hvalue,
                Option.getD_some]
              refine ⟨?_, content_load⟩
              simp only [Process.view, Option.map_some, content_load, hvalue]
          | none =>
              simp only [Option.map_none, Bool.false_eq_true, if_false, hstored, hvalue,
                Option.getD_none]
              refine ⟨?_, content_load⟩
              have hother : (p.worker.heap.load []).2 ≠ (p.worker.heap.load []).1.nextList :=
                (Nat.lt_succ_self p.worker.heap.nextList).ne
              simp only [Process.view, Option.map_some, content_load_of_ne hother, content_load,
                hvalue]

/-- **What a process answers is what its cache of values answers.** -/
theorem reads_eq (p : Process) (later : List (ℕ × Bool)) : p.reads later = p.view.reads later := by
  induction later generalizing p with
  | nil => rfl
  | cons read later ih =>
      obtain ⟨seconds, fails⟩ := read
      have hread := view_getMediaServers (p.wait seconds) fails
      have hview : (p.wait seconds).view = { p.view with clock := p.view.clock + seconds } := rfl
      rw [hview] at hread
      rw [Process.reads, CacheView.reads]
      rcases hp : (p.wait seconds).getMediaServers fails with ⟨p', l⟩
      rcases hv : CacheView.read { p.view with clock := p.view.clock + seconds } fails with
        ⟨v', list⟩
      rw [hp, hv] at hread
      simp only [ih, hread.1, hread.2]

/-- A call that cannot read the value returns the cached list. -/
theorem read_of_fails (v : CacheView) : (v.read true).2 = v.cached.getD [] := by
  rw [CacheView.read]
  cases hfresh : v.cached.filter fun _ => decide (v.clock - v.cachedAt < 30) with
  | none => rfl
  | some list =>
      rw [(Option.filter_eq_some_iff.1 hfresh).1]
      rfl

theorem reads_failing (v : CacheView) : v.reads [(0, true)] = [v.cached.getD []] :=
  congrArg ([·]) (read_of_fails { v with clock := v.clock + 0 })

/-- Two caches answer alike just when they hold the same list. -/
theorem reads_cached_iff (v : CacheView) (cached : Option (List ServerDict))
    (hsome : cached.isSome = v.cached.isSome) :
    (∀ later, { v with cached := cached }.reads later = v.reads later) ↔ cached = v.cached := by
  constructor
  · intro h
    have hread := h [(0, true)]
    rw [reads_failing, reads_failing] at hread
    cases cached with
    | none =>
        cases hcached : v.cached with
        | none => rfl
        | some old => simp [hcached] at hsome
    | some new =>
        cases hcached : v.cached with
        | none => simp [hcached] at hsome
        | some old =>
            rw [hcached] at hread
            exact congrArg some (List.singleton_inj.1 hread)
  · rintro rfl later
    rfl

end Values

/-! ### What a request does to the cached list -/

section Requests

variable {p q : Process} {h : Heap} {l : ℕ} {u : ServerUpdate} {readFails : Bool}
  {servers : List ServerDict} {scheme : String → Option String} {fields : ServerFields}
  {target : Option String → Bool}

/-- Assignments leave a server if it has the values. -/
theorem assign_eq_self {server : ServerDict} : server.assign fields = server ↔
    ∀ key value, fields key = some value → server.entries key = some value := by
  constructor
  · intro heq key value hvalue
    have hentry : (fields key).or (server.entries key) = server.entries key :=
      congrFun (congrArg ServerDict.entries heq) key
    rw [hvalue] at hentry
    exact hentry.symm
  · intro hvalues
    have hentries : (fun key => (fields key).or (server.entries key)) = server.entries := by
      funext key
      cases hvalue : fields key with
      | none => rfl
      | some value => exact (hvalues key value hvalue).symm
    rw [ServerDict.assign, hentries]

/-- Assignments to all servers that are meant. -/
theorem content_assignAll_eq : (h.assignAll l target fields).content l = h.content l ↔
    ∀ server ∈ h.content l, target server.id = true →
      ∀ key value, fields key = some value → server.entries key = some value := by
  have hlist : (h.assignAll l target fields).lists l = h.lists l := rfl
  rw [Heap.content, Heap.content, hlist, List.map_inj_left, List.forall_mem_map]
  refine forall_congr' fun r => forall_congr' fun hr => ?_
  rw [← assign_eq_self, Heap.assignAll]
  by_cases htarget : target (h.dicts r).id = true
  · simp only [hr, htarget, and_self, if_true, true_imp_iff]
  · simp only [htarget, and_false, if_false, false_imp_iff, Bool.false_eq_true]

/-- Assignments to the first of them. -/
theorem content_assignFirst_eq : (h.assignFirst l target fields).content l = h.content l ↔
    ∀ server ∈ (h.content l).find? (fun server => target server.id),
      ∀ key value, fields key = some value → server.entries key = some value := by
  have hfind : (h.content l).find? (fun server => target server.id) =
      ((h.lists l).find? fun r => target (h.dicts r).id).map h.dicts := List.find?_map ..
  rw [hfind, Heap.assignFirst]
  cases hfirst : (h.lists l).find? fun r => target (h.dicts r).id with
  | none => simp
  | some first =>
      have hmem : first ∈ h.lists l := List.mem_of_find?_eq_some hfirst
      simp only [Heap.content, List.map_inj_left, Option.map_some, Option.mem_some_iff,
        forall_eq', ← assign_eq_self]
      constructor
      · intro hall
        have hsame := hall first hmem
        rwa [Function.update_self] at hsame
      · intro hsame r _
        by_cases hr : r = first
        · rw [hr, Function.update_self, hsame]
        · rw [Function.update_of_ne hr]

/-- A new server is appended to another list. -/
theorem content_append_of_ne {server : ServerDict} {c : ℕ} (hc : c ≠ l) :
    (h.append l server).content c = h.content c := by
  have hlist : (h.append l server).lists c = h.lists c := Function.update_of_ne hc ..
  rw [Heap.content, hlist]
  exact List.map_congr_left fun r hr => Function.update_of_ne (h.lt_nextDict c r hr).ne ..

/-- What a request does to an empty list is not seen in another one. -/
theorem content_change_of_ne {c : ℕ} (hc : c ≠ l) (hnil : h.lists l = []) :
    (Site.change scheme h l u.task).1.content c = h.content c := by
  cases u with
  | add body =>
      rw [ServerUpdate.task, Site.change]
      split
      · rfl
      · exact content_append_of_ne hc
  | update id body =>
      rw [ServerUpdate.task, Site.change]
      split
      · rw [Heap.assignFirst, hnil]
        rfl
      · refine List.map_congr_left fun r _ => ?_
        rw [Heap.assignAll, hnil]
        simp

/-- Whether a URL is refused has nothing to do with the other servers. -/
theorem newServer_isNone (body : MediaServerBody) (ids : List (Option String)) :
    (newServer scheme body ids).isNone = (newServer scheme body []).isNone := by
  rw [newServer, newServer]
  split <;> rfl

/-- **What a request does to a list**: nothing, just when it is idle. -/
theorem content_change_eq (hrefused : u.refused scheme = false) :
    (Site.change scheme h l u.task).1.content l = h.content l ↔
      u.Idle scheme (h.content l) := by
  cases u with
  | add body =>
      rw [ServerUpdate.refused, ← newServer_isNone body ((h.content l).map (·.id))] at hrefused
      rw [ServerUpdate.task, Site.change, ServerUpdate.Idle]
      split
      · next hnone =>
          rw [hnone] at hrefused
          cases hrefused
      · rw [content_append]
        simp
  | update id body =>
      rw [ServerUpdate.task, Site.change, ServerUpdate.Idle, updatedServers]
      split
      · next hfails =>
          rw [Bool.and_eq_true] at hfails
          rw [if_pos hfails.2, content_assignFirst_eq, List.take_one, List.head?_filter]
          simp only [Option.mem_toList, Option.mem_def]
      · next hfails =>
          rw [content_assignAll_eq]
          split_ifs with hwrong
          · -- a URL would be refused, but no server has the name
            have hnone : ∀ server ∈ h.content l, ¬ Registry.isNamed id server.id = true := by
              intro server hserver hnamed
              rw [hwrong, Bool.and_true] at hfails
              exact hfails (List.any_eq_true.2 ⟨server, hserver, hnamed⟩)
            rw [List.filter_eq_nil_iff.2 hnone]
            exact iff_of_true (fun server hserver hnamed => absurd hnamed (hnone server hserver))
              (by simp)
          · simp only [List.mem_filter, and_imp]

/-! ### The list that is handed out -/

/-- The call leaves the stored value and the time. -/
theorem getMediaServers_fst : (p.getMediaServers readFails).1 =
    { p with worker := (p.getMediaServers readFails).1.worker } := by
  rw [Process.getMediaServers]
  repeat' split
  all_goals rfl

theorem content_getMediaServers : (p.getMediaServers readFails).1.worker.heap.content
    (p.getMediaServers readFails).2 = p.found readFails := by
  rw [(view_getMediaServers p readFails).2, CacheView.read, view_freshCache, Process.found]
  cases p.freshCache with
  | some l => rfl
  | none => cases readFails <;> rfl

/-- The list is the cached one. -/
theorem cache_of_handsOut (hout : p.HandsOutCache readFails) :
    (p.getMediaServers readFails).1.worker.cache = some (p.getMediaServers readFails).2 := by
  rw [Process.getMediaServers]
  rw [Process.HandsOutCache] at hout
  cases hfresh : p.freshCache with
  | some l => exact (Option.filter_eq_some_iff.1 hfresh).1
  | none =>
      rw [hfresh] at hout
      cases readFails with
      | true =>
          cases hcache : p.worker.cache with
          | some l => exact hcache
          | none => simp [hcache] at hout
      | false =>
          cases hvalue : p.stored with
          | some value => rfl
          | none => simp [hvalue] at hout

/-- Otherwise the list is empty, and not the cached one. -/
theorem cache_of_not_handsOut (hout : ¬ p.HandsOutCache readFails) :
    (p.getMediaServers readFails).1.worker.heap.lists (p.getMediaServers readFails).2 = [] ∧
      (p.getMediaServers readFails).1.worker.cache ≠ some (p.getMediaServers readFails).2 := by
  rw [Process.HandsOutCache, not_or, not_or] at hout
  obtain ⟨hfresh, hfails, hreads⟩ := hout
  rw [Option.not_isSome_iff_eq_none] at hfresh
  have hempty : ∀ h : Heap, (h.load []).1.lists (h.load []).2 = [] := fun h =>
    Function.update_self ..
  rw [Process.getMediaServers, hfresh]
  cases readFails with
  | true =>
      have hcache : p.worker.cache = none := by simpa using hfails
      simp only [if_true, hcache]
      exact ⟨hempty _, Option.some_ne_none _ |>.symm⟩
  | false =>
      have hstored : p.stored = none := by simpa using hreads
      simp only [Bool.false_eq_true, if_false, hstored]
      refine ⟨hempty _, fun heq => ?_⟩
      exact (Nat.lt_succ_self p.worker.heap.nextList).ne (Option.some.inj heq)

/-! ### Failed requests -/

/-- A request that ends in an error: nothing has happened, or the list is changed and not saved. -/
theorem request_failing : (p.request scheme u readFails true).1 =
    if u.refused scheme then p
    else
      { (p.getMediaServers readFails).1 with
        worker :=
          { (p.getMediaServers readFails).1.worker with
            heap := (Site.change scheme (p.getMediaServers readFails).1.worker.heap
              (p.getMediaServers readFails).2 u.task).1 } } := by
  rw [Process.request]
  split_ifs
  · rfl
  · rcases hread : p.getMediaServers readFails with ⟨q, l⟩
    rcases hchange : Site.change scheme q.worker.heap l u.task with ⟨heap, phase⟩
    simp only [hchange]
    cases phase <;> rfl

/-- Every error leaves the same behind: that of a save that fails. -/
theorem request_of_error {saveFails : Bool}
    (h : (p.request scheme u readFails saveFails).2 = .error) :
    p.request scheme u readFails saveFails = p.request scheme u readFails true := by
  cases saveFails with
  | true => rfl
  | false =>
      rw [Process.request] at h ⊢
      rw [Process.request]
      split_ifs at h ⊢ with hrefused
      · rfl
      · rcases hread : p.getMediaServers readFails with ⟨q, l⟩
        rcases hchange : Site.change scheme q.worker.heap l u.task with ⟨heap, phase⟩
        rw [hread] at h
        simp only [hchange] at h ⊢
        cases phase with
        | saving l' edit read raw => cases h
        | _ => rfl

/-- A failed request has no effect just when the cached list is the same as before it. -/
theorem allOrNothing_iff_cached (hrefused : u.refused scheme = false) :
    p.AllOrNothing scheme u readFails ↔
      (p.getMediaServers readFails).1.worker.cache.map
          (Site.change scheme (p.getMediaServers readFails).1.worker.heap
            (p.getMediaServers readFails).2 u.task).1.content =
        (p.getMediaServers readFails).1.worker.cache.map
          (p.getMediaServers readFails).1.worker.heap.content := by
  have hfailing := @request_failing p u readFails scheme
  rw [hrefused, if_neg Bool.false_ne_true] at hfailing
  have hbefore : p.before scheme u readFails = (p.getMediaServers readFails).1 := by
    rw [Process.before, hrefused, if_neg Bool.false_ne_true]
  have hsome : ((p.getMediaServers readFails).1.worker.cache.map
      (Site.change scheme (p.getMediaServers readFails).1.worker.heap
        (p.getMediaServers readFails).2 u.task).1.content).isSome =
      (p.getMediaServers readFails).1.view.cached.isSome := by
    rw [Process.view, Option.isSome_map, Option.isSome_map]
  have hiff := reads_cached_iff (p.getMediaServers readFails).1.view _ hsome
  constructor
  · rintro ⟨-, hreads⟩
    rw [hfailing, hbefore] at hreads
    simp only [reads_eq] at hreads
    exact hiff.1 hreads
  · intro hcached
    constructor
    · rw [hfailing, getMediaServers_fst]
    · intro later
      rw [hfailing, hbefore, reads_eq, reads_eq]
      exact hiff.2 hcached later

/-- **A failed request has no effect** just when its URL was refused before it read the list, or the
list it got is not the cached one, or it had nothing to change. -/
theorem allOrNothing_iff (scheme : String → Option String) (p : Process) (u : ServerUpdate)
    (readFails : Bool) :
    p.AllOrNothing scheme u readFails ↔
      u.refused scheme = true ∨ ¬ p.HandsOutCache readFails ∨
        u.Idle scheme (p.found readFails) := by
  cases hrefused : u.refused scheme with
  | true =>
      refine iff_of_true ⟨?_, fun later => ?_⟩ (.inl rfl)
      · rw [request_failing, if_pos hrefused]
      · rw [request_failing, Process.before, if_pos hrefused, if_pos hrefused]
  | false =>
      rw [allOrNothing_iff_cached hrefused, ← content_getMediaServers,
        ← content_change_eq hrefused]
      by_cases hout : p.HandsOutCache readFails
      · rw [cache_of_handsOut hout, Option.map_some, Option.map_some, Option.some_inj]
        simp only [hout, Bool.false_eq_true, not_true, false_or]
      · obtain ⟨hnil, hother⟩ := cache_of_not_handsOut hout
        refine iff_of_true ?_ (.inr (.inl hout))
        cases hcache : (p.getMediaServers readFails).1.worker.cache with
        | none => rfl
        | some c =>
            have hc : c ≠ (p.getMediaServers readFails).2 := by
              rintro rfl
              exact hother hcache
            exact congrArg some (content_change_of_ne hc hnil)

/-! ### Half of an update -/

/-- The part of a URL before its first colon. -/
def schemeOf (url : String) : Option String := some (String.ofList (url.toList.takeWhile (· ≠ ':')))

/-- One server is stored, and the process has not read the list yet. -/
def oneServer : Process where
  stored := some [
    { id := some "0"
      entries := fun
        | .url => some (.text "http://emby:8096")
        | .apiKey => some (.text "k")
        | _ => none }]
  clock := 60
  worker := { heap := Heap.empty, cache := none, cachedAt := 0 }

/-- A new address and an external address that is refused. -/
def halfUpdate : ServerUpdate :=
  .update "0" { url := some "http://other:8096", extUrl := some "ftp://emby" }

/-- The process goes on with the new address, which was never saved. -/
theorem not_allOrNothing_half :
    ¬ ∀ (scheme : String → Option String) (p : Process) (u : ServerUpdate) (readFails : Bool),
      p.AllOrNothing scheme u readFails := by
  intro h
  -- the address in what the next call returns
  let url (lists : List (List ServerDict)) : Option ServerValue :=
    (lists.flatten.head?).bind fun server => server.entries .url
  have hreads := congrArg url ((h schemeOf oneServer halfUpdate false).reads [(0, false)])
  have hafter : url ((oneServer.request schemeOf halfUpdate false true).1.reads [(0, false)]) =
      some (.text "http://other:8096") := by decide +kernel
  have hbefore : url ((oneServer.before schemeOf halfUpdate false).reads [(0, false)]) =
      some (.text "http://emby:8096") := by decide +kernel
  rw [hafter, hbefore] at hreads
  exact absurd hreads (by decide)

end Requests

/-! ### The requests among others -/

namespace Site

variable (scheme : String → Option String)

/-- A process of the site. -/
def process (s : Site) (w : ℕ) : Process where
  stored := s.stored
  clock := s.clock
  worker := s.workers w

/-- Steps of one request. -/
def moves (s : Site) (r : ℕ) : List ServerMove → Option Site
  | [] => some s
  | move :: rest => (s.step scheme (.advance r move)).bind fun t => t.moves r rest

variable {scheme} {s t : Site} {r : ℕ} {req : ServerRequest}

theorem moves_append {ms ms' : List ServerMove} (h : s.moves scheme r ms = some t) :
    s.moves scheme r (ms ++ ms') = t.moves scheme r ms' := by
  induction ms generalizing s with
  | nil =>
      cases h
      rfl
  | cons m ms ih =>
      obtain ⟨s', hstep, hrest⟩ := Option.bind_eq_some_iff.1 h
      rw [List.cons_append, moves, hstep, Option.bind_some]
      exact ih hrest

theorem moves_singleton {m : ServerMove} (hreq : s.requests r = some req) :
    s.moves scheme r [m] = s.advance scheme r req m := by
  rw [moves, step, hreq, Option.bind_some]
  cases s.advance scheme r req m <;> rfl

theorem setWorker_self {w : ℕ} : s.setWorker w (s.workers w) = s := by
  rw [setWorker, Function.update_eq_self]

/-- Only the last phase of a request is seen. -/
theorem setPhase_setWorker {w : ℕ} {worker : Worker} {phase phase' : Phase} :
    ((s.setPhase r req phase).setWorker w worker).setPhase r { req with phase := phase } phase' =
      (s.setWorker w worker).setPhase r req phase' := by
  simp only [setPhase, setWorker, Function.update_idem]

/-- The call of `get_media_servers` that a request makes. -/
theorem exists_moves_getMediaServers {w : ℕ} {task : ServerTask}
    (hreq : s.requests r = some { worker := w, task := task, phase := .reading }) (fails : Bool) :
    ∃ ms, s.moves scheme r ms = some
      ((s.setWorker w ((s.process w).getMediaServers fails).1.worker).setPhase r
        { worker := w, task := task, phase := .reading }
        (.holding ((s.process w).getMediaServers fails).2)) := by
  have hfresh : (s.process w).freshCache = s.freshCache w := rfl
  rw [Process.getMediaServers, hfresh]
  cases hcache : s.freshCache w with
  | some l =>
      refine ⟨[.useCache], ?_⟩
      simp only [moves_singleton hreq, advance, hcache, Option.map_some]
      exact congrArg (fun s' : Site => some (s'.setPhase r _ (.holding l))) setWorker_self.symm
  | none =>
      cases fails with
      | true =>
          refine ⟨[.failRead], ?_⟩
          simp only [moves_singleton hreq, advance, hcache, afterFailure, process,
            Option.isSome_none, Bool.false_eq_true, if_false, if_true]
          cases hlast : (s.workers w).cache with
          | some l =>
              exact congrArg (fun s' : Site => some (s'.setPhase r _ (.holding l)))
                setWorker_self.symm
          | none => rfl
      | false =>
          refine ⟨[.fetch] ++ [.install], ?_⟩
          have hfetch : s.moves scheme r [.fetch] = some (s.setPhase r
              { worker := w, task := task, phase := .reading } (.fetched s.stored s.clock)) := by
            simp only [moves_singleton hreq, advance, hcache, Option.isSome_none,
              Bool.false_eq_true, if_false]
          refine (moves_append hfetch).trans ?_
          rw [moves_singleton (Function.update_self ..)]
          simp only [process, Bool.false_eq_true, if_false]
          cases hvalue : s.stored with
          | some value => exact congrArg some setPhase_setWorker
          | none => exact congrArg some setPhase_setWorker

/-- A request fails, or goes on to save the list. -/
theorem change_phase {h : Heap} {l : ℕ} {u : ServerUpdate} :
    (change scheme h l u.task).2 = .failed ∨
      ∃ l' edit read raw, (change scheme h l u.task).2 = .saving l' edit read raw := by
  cases u with
  | add body =>
      rw [ServerUpdate.task, change]
      split
      · exact .inl rfl
      · exact .inr ⟨_, _, _, _, rfl⟩
  | update id body =>
      rw [ServerUpdate.task, change]
      split
      · exact .inl rfl
      · exact .inr ⟨_, _, _, _, rfl⟩

/-- **A failed request of the site** leaves the process that the request leaves by itself. -/
theorem exists_moves_request {w : ℕ} {u : ServerUpdate} (hrefused : u.refused scheme = false)
    (hreq : s.requests r = some { worker := w, task := u.task, phase := .reading })
    (readFails : Bool) :
    ∃ ms t, s.moves scheme r ms = some t ∧
      t.requests r = some { worker := w, task := u.task, phase := .failed } ∧
      t.process w = ((s.process w).request scheme u readFails true).1 := by
  obtain ⟨ms, hread⟩ := @exists_moves_getMediaServers scheme s r w u.task hreq readFails
  have hfailing := @request_failing (s.process w) u readFails scheme
  rw [hrefused, if_neg Bool.false_ne_true] at hfailing
  rw [hfailing, getMediaServers_fst]
  set q := (s.process w).getMediaServers readFails
  set held := (s.setWorker w q.1.worker).setPhase r
    { worker := w, task := u.task, phase := .reading } (.holding q.2)
  have hworker : held.workers w = q.1.worker := Function.update_self ..
  have hholding : held.requests r = some
      { worker := w, task := u.task, phase := .holding q.2 } := Function.update_self ..
  set changed := Site.change scheme q.1.worker.heap q.2 u.task with hchanged
  have hchange : held.moves scheme r [.change] = some
      ((held.setWorker w { q.1.worker with heap := changed.1 }).setPhase r
        { worker := w, task := u.task, phase := .holding q.2 } changed.2) := by
    rw [moves_singleton hholding, hchanged]
    cases u <;> simp only [advance, ServerUpdate.task, hworker]
  have hprocess : ∀ phase, ((held.setWorker w { q.1.worker with heap := changed.1 }).setPhase r
      { worker := w, task := u.task, phase := .holding q.2 } phase).process w =
      { s.process w with worker := { q.1.worker with heap := changed.1 } } := by
    intro phase
    simp only [process, setPhase, setWorker, Function.update_self]
    rfl
  rcases @change_phase scheme q.1.worker.heap q.2 u with hfailed | ⟨l', edit, read, raw, hsaving⟩
  · refine ⟨ms ++ [.change], _, (moves_append hread).trans hchange, ?_, hprocess _⟩
    rw [← hchanged] at hfailed
    rw [hfailed]
    exact Function.update_self ..
  · refine ⟨ms ++ ([.change] ++ [.fail]), _, (moves_append hread).trans
      ((moves_append hchange).trans ?_), Function.update_self .., hprocess .failed⟩
    rw [← hchanged] at hsaving
    rw [hsaving, moves_singleton (Function.update_self ..)]
    simp only [advance, setPhase, Function.update_idem]

end Site

end Hygie
