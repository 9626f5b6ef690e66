/-
**The silent refresh of the access token.**

The browser holds a short-lived access token.  When an answer is 401, an interceptor asks for a new
token and sends the request again; requests that fail meanwhile wait in a queue for the same
refresh.  All of it runs on the one thread of the browser, but responses, refreshes and the callers
interleave in any order: the flag and the queue are what holds it together.

One event is one piece of code that runs without a pause.  The continuations of the queued requests
that have been resolved run after it and before the next answer or change of session, as the
browser does it; a caller may send new requests at any time.

Main definitions:

* `Client` — the flag, the queue, the tokens, and what is in flight;
* `Client.step` — what an event does, and what can be seen of it (`Effect`);
* `Session.run` — any events, from the start;
* `SilentRefresh` — what the interceptor promises.

Main results:

* `silentRefresh_run` — **the interceptor keeps its promise**, whatever the events are;
* `Move.of_step` — everything that a step can do.
-/

import Mathlib.Tactic
import Hygie.PyText

set_option relaxedAutoImplicit false
set_option autoImplicit false

namespace Hygie

namespace ApiClient

/-! ### Public pages -/

/-- The top-level paths, and whether they are public. -/
def routes : List (String × Bool) :=
  [("/setup", true), ("/login", true), ("/", false), ("/library/:id", false), ("/queue", false),
    ("/calendar", false), ("/rules", false), ("/settings", false), ("/logs", false),
    ("/ignored", false), ("/:slug", true)]

/-- A segment of a path against one of a route: a parameter takes any text but the empty one. -/
def segmentMatches (pattern segment : List Char) : Bool :=
  if pattern.head? = some ':' then segment ≠ [] else pattern = segment

/-- `pathToRegex(path)`, tested on a path. -/
def pathMatches (path pathname : String) : Bool :=
  let patterns := path.toList.splitOn '/'
  let segments := pathname.toList.splitOn '/'
  patterns.length = segments.length &&
    (patterns.zip segments).all fun s => segmentMatches s.1 s.2

/-- `isProtectedPath(pathname)`. -/
def isProtectedPath (pathname : String) : Bool :=
  match routes.find? fun r => pathMatches r.1 pathname with
  | none => true
  | some r => !r.2

example : isProtectedPath "/library/7" = true ∧ isProtectedPath "/a-calendar" = false := by
  decide +kernel

/-! ### Requests and tokens -/

/-- The configuration of a request: its URL, its `Authorization` header and `_retried`. -/
structure Request where
  url : String
  authorization : Option String
  retried : Bool
deriving DecidableEq

/-- A request under the number that its caller knows it by; a retry keeps the number. -/
structure Sent where
  id : ℕ
  request : Request
deriving DecidableEq

/-- The header for a token; one that is undefined is written out. -/
def bearer (token : Option String) : String := "Bearer " ++ token.getD "undefined"

/-- `token || ''`. -/
def orEmpty (token : Option String) : String := token.getD ""

/-- `originalReq.url.includes('/auth/')`. -/
def isAuthEndpoint (url : String) : Bool :=
  url.toList.tails.any ("/auth/".toList.isPrefixOf ·)

/-- The request interceptor. -/
def requestInterceptor (token : String) (cfg : Request) : Request :=
  if token = "" then cfg else { cfg with authorization := some (bearer (some token)) }

/-- What a promise is rejected with: an answer with its status, an answer without one, or an
exception in the code. -/
inductive Failure
  | http (status : Option ℕ)
  | typeError
deriving DecidableEq

/-- What is answered to a refresh. -/
inductive RefreshAnswer
  | data (accessToken token : Option String)
  | noData
  | failed (status : Option ℕ)

/-- `data.access_token || data.token`. -/
def RefreshAnswer.newToken : RefreshAnswer → Except Failure (Option String)
  | .data accessToken token =>
      .ok (if orEmpty accessToken = "" then token else accessToken)
  | .noData => .error .typeError
  | .failed status => .error (.http status)

/-- A refresh in flight, and the request whose interceptor waits for it. -/
structure Refresh where
  number : ℕ
  original : Sent
deriving DecidableEq

/-- The continuation of a queued request that has been resolved with a token. -/
structure Continuation where
  number : ℕ
  sent : Sent
  newToken : Option String
deriving DecidableEq

/-- The state of `client.js` and of the runtime around it. -/
structure Client where
  isRefreshing : Bool
  refreshQueue : List Sent
  token : String
  legacyToken : Option String
  /-- `api.defaults.headers.common.Authorization`. -/
  defaultAuthorization : Option String
  inFlight : List Sent
  refreshes : List Refresh
  continuations : List Continuation
  /-- How many requests have been sent, and how many refreshes. -/
  issued : ℕ
  refreshCount : ℕ

/-- What can be seen of a step. -/
inductive Effect
  | send (sent : Sent)
  | deliver (id : ℕ)
  | reject (id : ℕ) (failure : Failure)
  | postRefresh (number : ℕ) (refreshToken : String)
  | queue (id number : ℕ)
  | refreshSettled (number : ℕ) (outcome : Except Failure (Option String))
  | settle (id number : ℕ) (outcome : Except Failure (Option String))
  | retry (number : ℕ) (sent : Sent)
  | unauthorized

/-! ### The interceptors -/

/-- The request goes out again with the new token. -/
def Sent.retry (sent : Sent) (newToken : Option String) (token : String) : Sent :=
  { sent with
    request := requestInterceptor token
      { sent.request with authorization := some (bearer newToken), retried := true } }

namespace Client

/-- A caller sends a request. -/
def send (c : Client) (url : String) : Client × List Effect :=
  let sent : Sent := ⟨c.issued, requestInterceptor c.token ⟨url, c.defaultAuthorization, false⟩⟩
  ({ c with issued := c.issued + 1, inFlight := c.inFlight ++ [sent] }, [.send sent])

/-- The interceptor puts the request in the queue. -/
def enqueue (c : Client) (sent : Sent) : Client × List Effect :=
  ({ c with refreshQueue := c.refreshQueue ++ [sent] }, [.queue sent.id c.refreshCount])

/-- The interceptor asks for a new token. -/
def startRefresh (c : Client) (sent : Sent) : Client × List Effect :=
  let number := c.refreshCount + 1
  let original : Sent := { sent with request := { sent.request with retried := true } }
  ({ c with
      isRefreshing := true
      refreshCount := number
      refreshes := c.refreshes ++ [⟨number, original⟩] },
    [.postRefresh number (orEmpty c.legacyToken)])

/-- The response interceptor, for an answer that is an error. -/
def onError (c : Client) (pathname : String) (sent : Sent) (status : Option ℕ) :
    Client × List Effect :=
  if status = some 401 ∧ isProtectedPath pathname ∧ ¬ isAuthEndpoint sent.request.url ∧
      ¬ sent.request.retried then
    if c.isRefreshing then c.enqueue sent else c.startRefresh sent
  else (c, [.reject sent.id (.http status)])

/-- `_processQueue(error, token)`: every entry is resolved with the token or rejected. -/
def processQueue (c : Client) (number : ℕ) (outcome : Except Failure (Option String)) :
    Client × List Effect :=
  let continuations :=
    match outcome with
    | .error _ => []
    | .ok newToken => c.refreshQueue.map fun sent => ⟨number, sent, newToken⟩
  ({ c with refreshQueue := [], continuations := c.continuations ++ continuations },
    c.refreshQueue.map fun sent => .settle sent.id number outcome)

/-- The rest of the interceptor, when its refresh has been answered with a token. -/
def onToken (c : Client) (r : Refresh) (newToken : Option String) : Client × List Effect :=
  let token := orEmpty newToken
  let c := { c with
    token := token
    legacyToken := none
    defaultAuthorization := some (bearer newToken) }
  let processed := c.processQueue r.number (.ok newToken)
  let again := r.original.retry newToken token
  ({ processed.1 with inFlight := c.inFlight ++ [again], isRefreshing := false },
    [.refreshSettled r.number (.ok newToken)] ++ processed.2 ++ [.retry r.number again])

/-- The rest of the interceptor, when its refresh has failed. -/
def onRefreshError (c : Client) (r : Refresh) (failure : Failure) : Client × List Effect :=
  let processed := c.processQueue r.number (.error failure)
  ({ processed.1 with token := "", legacyToken := none, isRefreshing := false },
    [.refreshSettled r.number (.error failure)] ++ processed.2 ++
      [.unauthorized, .reject r.original.id failure])

/-- The continuation of a queued request. -/
def continueWith (c : Client) (k : Continuation) : Client × List Effect :=
  let again := k.sent.retry k.newToken c.token
  ({ c with inFlight := c.inFlight ++ [again] }, [.retry k.number again])

end Client

/-! ### Events -/

/-- What happens in the browser. -/
inductive Event
  /-- A caller sends a request. -/
  | request (url : String)
  /-- A request in flight is answered well. -/
  | success (sent : Sent)
  /-- A request in flight is answered with an error, while a page is shown. -/
  | failure (sent : Sent) (pathname : String) (status : Option ℕ)
  /-- A refresh in flight is answered. -/
  | refreshed (r : Refresh) (answer : RefreshAnswer)
  /-- The next continuation runs. -/
  | continuation
  /-- A login, a logout or a start of the page changes the tokens. -/
  | session (token : String) (legacyToken : Option String)

/-- What an event does; nothing stands for an event that cannot happen. -/
def Client.step (c : Client) : Event → Option (Client × List Effect)
  | .request url => some (c.send url)
  | .success sent =>
      if c.continuations = [] ∧ sent ∈ c.inFlight then
        some ({ c with inFlight := c.inFlight.erase sent }, [.deliver sent.id])
      else none
  | .failure sent pathname status =>
      if c.continuations = [] ∧ sent ∈ c.inFlight then
        some ({ c with inFlight := c.inFlight.erase sent }.onError pathname sent status)
      else none
  | .refreshed r answer =>
      if c.continuations = [] ∧ r ∈ c.refreshes then
        let c' := { c with refreshes := c.refreshes.erase r }
        match answer.newToken with
        | .ok newToken => some (c'.onToken r newToken)
        | .error failure => some (c'.onRefreshError r failure)
      else none
  | .continuation =>
      match c.continuations with
      | [] => none
      | k :: rest => some ({ c with continuations := rest }.continueWith k)
  | .session token legacyToken =>
      if c.continuations = [] then
        some ({ c with token := token, legacyToken := legacyToken }, [])
      else none

/-- The client, and everything that has been seen of it. -/
structure Session where
  client : Client
  effects : List Effect

/-- The page has been loaded. -/
def Session.start (token : String) (legacyToken : Option String) : Session where
  client :=
    { isRefreshing := false, refreshQueue := [], token := token, legacyToken := legacyToken,
      defaultAuthorization := none, inFlight := [], refreshes := [], continuations := [],
      issued := 0, refreshCount := 0 }
  effects := []

/-- One event; one that cannot happen does nothing. -/
def Session.perform (s : Session) (e : Event) : Session :=
  match s.client.step e with
  | some (c, effects) => ⟨c, s.effects ++ effects⟩
  | none => s

/-- Events one after the other. -/
def Session.run (s : Session) (events : List Event) : Session := events.foldl Session.perform s

/-! ### What the interceptor promises -/

namespace Effect

/-- The request is sent again. -/
def isRetry (id : ℕ) : Effect → Bool
  | .retry _ sent => sent.id = id
  | _ => false

/-- The request is put in the queue of a refresh. -/
def isQueue (id number : ℕ) : Effect → Bool
  | .queue i n => i = id && n = number
  | _ => false

/-- The request is put in a queue. -/
def isQueued (id : ℕ) : Effect → Bool
  | .queue i _ => i = id
  | _ => false

/-- The request is resolved or rejected with a refresh. -/
def isSettle (id number : ℕ) : Effect → Bool
  | .settle i n _ => i = id && n = number
  | _ => false

end Effect

/-- **What the interceptor promises**, of everything that has been seen up to now: one refresh at a
time; no request is sent again twice; as soon as a refresh has settled, and no sooner, the requests
that were queued for it are settled, each as often as it was queued, which is once, and with the
outcome of that refresh; the queue is empty when no refresh is in flight; and what is resolved is
sent again with the new token, as soon as its continuation has run. -/
structure SilentRefresh (s : Session) : Prop where
  one_in_flight : s.client.refreshes.length ≤ 1
  one_retry : ∀ id, s.effects.countP (Effect.isRetry id) ≤ 1
  one_queue : ∀ id, s.effects.countP (Effect.isQueued id) ≤ 1
  one_outcome : ∀ n o o', Effect.refreshSettled n o ∈ s.effects →
    Effect.refreshSettled n o' ∈ s.effects → o = o'
  settled : ∀ n o, Effect.refreshSettled n o ∈ s.effects → ∀ id,
    s.effects.countP (Effect.isSettle id n) = s.effects.countP (Effect.isQueue id n)
  outcome : ∀ id n o, Effect.settle id n o ∈ s.effects → Effect.refreshSettled n o ∈ s.effects
  empty : s.client.refreshes = [] → s.client.refreshQueue = []
  resolved : ∀ id n newToken, Effect.settle id n (.ok newToken) ∈ s.effects →
    (∃ sent, Effect.retry n sent ∈ s.effects ∧ sent.id = id) ∨
      ∃ k ∈ s.client.continuations, k.number = n ∧ k.sent.id = id
  new_token : ∀ n sent, Effect.retry n sent ∈ s.effects → ∃ newToken,
    Effect.refreshSettled n (.ok newToken) ∈ s.effects ∧
      sent.request.authorization = some (bearer newToken) ∧ sent.request.retried = true

/-! ### What a step can do -/

theorem Sent.authorization_retry (sent : Sent) (newToken : Option String) :
    (sent.retry newToken (orEmpty newToken)).request.authorization = some (bearer newToken) := by
  unfold Sent.retry requestInterceptor
  split
  next => rfl
  next hne =>
    cases newToken with
    | none => exact absurd rfl hne
    | some t => rfl

theorem Sent.retried_retry (sent : Sent) (newToken : Option String) (token : String) :
    (sent.retry newToken token).request.retried = true := by
  unfold Sent.retry requestInterceptor
  split <;> rfl

/-- Everything that a step can do. -/
inductive Move (c : Client) : Client → List Effect → Prop
  | send (request : Request) (hretried : request.retried = false) :
      Move c
        { c with issued := c.issued + 1, inFlight := c.inFlight ++ [⟨c.issued, request⟩] }
        [.send ⟨c.issued, request⟩]
  | deliver {sent : Sent} (hmem : sent ∈ c.inFlight) :
      Move c { c with inFlight := c.inFlight.erase sent } [.deliver sent.id]
  | reject {sent : Sent} (hmem : sent ∈ c.inFlight) (failure : Failure) :
      Move c { c with inFlight := c.inFlight.erase sent } [.reject sent.id failure]
  | enqueue {sent : Sent} (hmem : sent ∈ c.inFlight) (hretried : sent.request.retried = false)
      (hbusy : c.isRefreshing = true) :
      Move c
        { c with
          inFlight := c.inFlight.erase sent
          refreshQueue := c.refreshQueue ++ [sent] }
        [.queue sent.id c.refreshCount]
  | startRefresh {sent : Sent} (original : Sent) (hmem : sent ∈ c.inFlight)
      (hretried : sent.request.retried = false) (hidle : c.isRefreshing = false)
      (hid : original.id = sent.id) (refreshToken : String) :
      Move c
        { c with
          inFlight := c.inFlight.erase sent
          isRefreshing := true
          refreshCount := c.refreshCount + 1
          refreshes := c.refreshes ++ [⟨c.refreshCount + 1, original⟩] }
        [.postRefresh (c.refreshCount + 1) refreshToken]
  | token {r : Refresh} {newToken : Option String} (again : Sent) (hmem : r ∈ c.refreshes)
      (hready : c.continuations = []) (hid : again.id = r.original.id)
      (hretried : again.request.retried = true)
      (hheader : again.request.authorization = some (bearer newToken)) :
      Move c
        { c with
          refreshes := c.refreshes.erase r
          token := orEmpty newToken
          legacyToken := none
          defaultAuthorization := some (bearer newToken)
          refreshQueue := []
          continuations := c.refreshQueue.map fun sent => ⟨r.number, sent, newToken⟩
          inFlight := c.inFlight ++ [again]
          isRefreshing := false }
        ([.refreshSettled r.number (.ok newToken)] ++
          c.refreshQueue.map (fun sent => .settle sent.id r.number (.ok newToken)) ++
          [.retry r.number again])
  | refreshError {r : Refresh} (hmem : r ∈ c.refreshes) (hready : c.continuations = [])
      (failure : Failure) :
      Move c
        { c with
          refreshes := c.refreshes.erase r
          token := ""
          legacyToken := none
          refreshQueue := []
          isRefreshing := false }
        ([.refreshSettled r.number (.error failure)] ++
          c.refreshQueue.map (fun sent => .settle sent.id r.number (.error failure)) ++
          [.unauthorized, .reject r.original.id failure])
  | continuation {k : Continuation} {rest : List Continuation} {again : Sent}
      (hk : c.continuations = k :: rest) (hid : again.id = k.sent.id)
      (hretried : again.request.retried = true)
      (hheader : c.token = orEmpty k.newToken →
        again.request.authorization = some (bearer k.newToken)) :
      Move c { c with continuations := rest, inFlight := c.inFlight ++ [again] }
        [.retry k.number again]
  | session (hready : c.continuations = []) (token : String) (legacyToken : Option String) :
      Move c { c with token := token, legacyToken := legacyToken } []

theorem Move.of_onError {c : Client} {sent : Sent} (pathname : String) (status : Option ℕ)
    (hmem : sent ∈ c.inFlight) :
    Move c ({ c with inFlight := c.inFlight.erase sent }.onError pathname sent status).1
      ({ c with inFlight := c.inFlight.erase sent }.onError pathname sent status).2 := by
  unfold Client.onError
  split
  next h =>
    have hretried : sent.request.retried = false := Bool.not_eq_true _ ▸ h.2.2.2
    split
    next hbusy => exact .enqueue hmem hretried hbusy
    next hidle =>
      exact .startRefresh { sent with request := { sent.request with retried := true } } hmem
        hretried (Bool.not_eq_true _ ▸ hidle) rfl _
  next => exact .reject hmem _

/-- **Everything that a step can do.** -/
theorem Move.of_step {c c' : Client} {e : Event} {effects : List Effect}
    (h : c.step e = some (c', effects)) :
    Move c c' effects := by
  cases e with
  | request url =>
      obtain ⟨rfl, rfl⟩ := Prod.mk.inj (Option.some.inj h)
      refine .send _ ?_
      unfold requestInterceptor
      split <;> rfl
  | success sent =>
      rw [Client.step] at h
      split at h
      next hguard =>
        obtain ⟨rfl, rfl⟩ := Prod.mk.inj (Option.some.inj h)
        exact .deliver hguard.2
      next => cases h
  | failure sent pathname status =>
      rw [Client.step] at h
      split at h
      next hguard =>
        have hmove := Move.of_onError pathname status hguard.2
        rwa [Option.some.inj h] at hmove
      next => cases h
  | refreshed r answer =>
      rw [Client.step] at h
      split at h
      next hguard =>
        obtain ⟨hready, hmem⟩ := hguard
        -- an answer is handled only when no continuation is waiting
        have hnil : ∀ l : List Continuation, c.continuations ++ l = l := by
          intro l
          rw [hready, List.nil_append]
        cases hanswer : answer.newToken with
        | ok newToken =>
            rw [hanswer] at h
            obtain ⟨rfl, rfl⟩ := Prod.mk.inj (Option.some.inj h)
            have hmove := Move.token (r.original.retry newToken _) hmem hready rfl
              (Sent.retried_retry _ _ _) (Sent.authorization_retry _ newToken)
            simpa only [Client.onToken, Client.processQueue, hnil] using hmove
        | error failure =>
            rw [hanswer] at h
            obtain ⟨rfl, rfl⟩ := Prod.mk.inj (Option.some.inj h)
            have hmove := Move.refreshError hmem hready failure
            simpa only [Client.onRefreshError, Client.processQueue, List.append_nil] using hmove
      next => cases h
  | continuation =>
      rw [Client.step] at h
      cases hk : c.continuations with
      | nil =>
          rw [hk] at h
          cases h
      | cons k rest =>
          rw [hk] at h
          obtain ⟨rfl, rfl⟩ := Prod.mk.inj (Option.some.inj h)
          refine .continuation hk rfl (Sent.retried_retry _ _ _) fun htoken => ?_
          change (k.sent.retry k.newToken c.token).request.authorization = _
          rw [htoken]
          exact Sent.authorization_retry _ _
  | session token legacyToken =>
      rw [Client.step] at h
      split at h
      next hready =>
        obtain ⟨rfl, rfl⟩ := Prod.mk.inj (Option.some.inj h)
        exact .session hready _ _
      next => cases h

/-! ### One refresh at a time -/

/-- The flag tells whether a refresh is in flight, which is then the last one; without one, nobody
waits. -/
structure Client.Orderly (c : Client) : Prop where
  flag : c.refreshes.map Refresh.number = if c.isRefreshing then [c.refreshCount] else []
  idle : c.isRefreshing = false → c.refreshQueue = []

section Orderly

variable {c c' : Client} {effects : List Effect} {r : Refresh}

theorem Client.Orderly.refreshing (h : c.Orderly) (hmem : r ∈ c.refreshes) :
    c.isRefreshing = true := by
  by_contra hidle
  have hflag := h.flag
  rw [if_neg hidle, List.map_eq_nil_iff] at hflag
  exact List.not_mem_nil (hflag ▸ hmem)

theorem Client.Orderly.only (h : c.Orderly) (hmem : r ∈ c.refreshes) :
    c.refreshes = [r] ∧ r.number = c.refreshCount := by
  have hflag := h.flag
  rw [if_pos (h.refreshing hmem), List.map_eq_singleton_iff] at hflag
  obtain ⟨r', hr', hnumber⟩ := hflag
  rw [hr', List.mem_singleton] at hmem
  subst hmem
  exact ⟨hr', hnumber⟩

theorem Client.Orderly.no_refresh (h : c.Orderly) (hidle : c.isRefreshing = false) :
    c.refreshes = [] := by
  have hflag := h.flag
  rwa [if_neg (Bool.not_eq_true _ ▸ hidle), List.map_eq_nil_iff] at hflag

theorem Client.Orderly.erase (h : c.Orderly) (hmem : r ∈ c.refreshes) :
    c.refreshes.erase r = [] := by
  rw [(h.only hmem).1]
  exact List.erase_cons_head r []

theorem Move.orderly (hmove : Move c c' effects) (h : c.Orderly) : c'.Orderly := by
  cases hmove with
  | send => exact ⟨h.flag, h.idle⟩
  | deliver => exact ⟨h.flag, h.idle⟩
  | reject => exact ⟨h.flag, h.idle⟩
  | enqueue _ _ hbusy => exact ⟨h.flag, fun hidle => absurd (hbusy.symm.trans hidle) nofun⟩
  | startRefresh _ _ _ hidle _ _ =>
      refine ⟨?_, nofun⟩
      rw [h.no_refresh hidle]
      rfl
  | token _ hmem => exact ⟨by rw [h.erase hmem]; rfl, fun _ => rfl⟩
  | refreshError hmem => exact ⟨by rw [h.erase hmem]; rfl, fun _ => rfl⟩
  | continuation => exact ⟨h.flag, h.idle⟩
  | session => exact ⟨h.flag, h.idle⟩

end Orderly

/-! ### Every request is queued once and sent again once -/

/-- How often the request is in flight for the first time. -/
def Client.fresh (c : Client) (id : ℕ) : ℕ :=
  c.inFlight.countP fun sent => sent.id = id && !sent.request.retried

/-- In how many places the request may still be sent again from. -/
def Client.tickets (c : Client) (id : ℕ) : ℕ :=
  c.fresh id + c.refreshQueue.countP (·.id = id) + c.refreshes.countP (·.original.id = id) +
    c.continuations.countP (·.sent.id = id)

/-- A request that has been sent has one ticket. -/
def Client.share (c : Client) (id : ℕ) : ℕ := if id < c.issued then 1 else 0

theorem countP_erase_add {α : Type} [DecidableEq α] {l : List α} {a : α} (p : α → Bool)
    (hmem : a ∈ l) :
    (l.erase a).countP p + (if p a then 1 else 0) = l.countP p := by
  rw [(List.perm_cons_erase hmem).countP_eq p, List.countP_cons]

section Tickets

variable {c c' : Client} {effects : List Effect}

/-- A step that sends a request again uses up a ticket of it. -/
theorem Move.tickets_le (hmove : Move c c' effects) (id : ℕ) :
    effects.countP (Effect.isRetry id) + c'.tickets id + c.share id ≤
      c.tickets id + c'.share id := by
  unfold Client.tickets Client.fresh Client.share
  cases hmove with
  | send request hretried =>
      simp only [List.countP_append, List.countP_cons, List.countP_nil, Effect.isRetry, hretried]
      by_cases hid : c.issued = id
      · simp [hid]
        omega
      · have hiff : id < c.issued + 1 ↔ id < c.issued := by omega
        simp [hid, hiff]
  | deliver hmem =>
      have hcount := countP_erase_add (fun sent => sent.id = id && !sent.request.retried) hmem
      simp [Effect.isRetry]
      omega
  | reject hmem =>
      have hcount := countP_erase_add (fun sent => sent.id = id && !sent.request.retried) hmem
      simp [Effect.isRetry]
      omega
  | enqueue hmem hretried =>
      have hcount := countP_erase_add (fun sent => sent.id = id && !sent.request.retried) hmem
      simp [Effect.isRetry, hretried] at hcount ⊢
      omega
  | startRefresh original hmem hretried _ hid =>
      have hcount := countP_erase_add (fun sent => sent.id = id && !sent.request.retried) hmem
      simp [Effect.isRetry, hretried, hid] at hcount ⊢
      omega
  | token again hmem hready hid hretried =>
      have hcount := countP_erase_add (fun r => r.original.id = id) hmem
      simp [Effect.isRetry, hretried, hid, hready, List.countP_map, Function.comp_def,
        List.countP_cons] at hcount ⊢
      omega
  | refreshError hmem =>
      have hcount := countP_erase_add (fun r => r.original.id = id) hmem
      simp [Effect.isRetry, List.countP_map, Function.comp_def] at hcount ⊢
      omega
  | continuation hk hid hretried =>
      simp [Effect.isRetry, hk, hid, hretried, List.countP_cons]
      omega
  | session => simp

/-- A step that puts a request in the queue takes it out of flight. -/
theorem Move.fresh_le (hmove : Move c c' effects) (id : ℕ) :
    effects.countP (Effect.isQueued id) + c'.fresh id + c.share id ≤
      c.fresh id + c'.share id := by
  unfold Client.fresh Client.share
  cases hmove with
  | send request hretried =>
      simp only [List.countP_append, List.countP_cons, List.countP_nil, Effect.isQueued, hretried]
      by_cases hid : c.issued = id
      · simp [hid]
      · have hiff : id < c.issued + 1 ↔ id < c.issued := by omega
        simp [hid, hiff]
  | deliver hmem =>
      have hcount := countP_erase_add (fun sent => sent.id = id && !sent.request.retried) hmem
      simp [Effect.isQueued]
      omega
  | reject hmem =>
      have hcount := countP_erase_add (fun sent => sent.id = id && !sent.request.retried) hmem
      simp [Effect.isQueued]
      omega
  | enqueue hmem hretried =>
      have hcount := countP_erase_add (fun sent => sent.id = id && !sent.request.retried) hmem
      simp [Effect.isQueued, hretried, List.countP_cons] at hcount ⊢
      omega
  | startRefresh original hmem =>
      have hcount := countP_erase_add (fun sent => sent.id = id && !sent.request.retried) hmem
      simp [Effect.isQueued]
      omega
  | token again hmem hready hid hretried =>
      simp [Effect.isQueued, hretried, List.countP_map, Function.comp_def]
  | refreshError hmem => simp [Effect.isQueued, List.countP_map, Function.comp_def]
  | continuation hk hid hretried => simp [Effect.isQueued, hretried]
  | session => simp

/-- Tickets that are left, with the ones that have been used. -/
structure Session.Counted (s : Session) : Prop where
  tickets : ∀ id, s.effects.countP (Effect.isRetry id) + s.client.tickets id ≤ s.client.share id
  fresh : ∀ id, s.effects.countP (Effect.isQueued id) + s.client.fresh id ≤ s.client.share id

theorem Move.counted {s : Session} (hmove : Move s.client c' effects) (h : s.Counted) :
    (⟨c', s.effects ++ effects⟩ : Session).Counted := by
  constructor
  · intro id
    have hs := h.tickets id
    have hle := hmove.tickets_le id
    rw [List.countP_append]
    change _ + _ + c'.tickets id ≤ c'.share id
    omega
  · intro id
    have hs := h.fresh id
    have hle := hmove.fresh_le id
    rw [List.countP_append]
    change _ + _ + c'.fresh id ≤ c'.share id
    omega

theorem Client.share_le_one (c : Client) (id : ℕ) : c.share id ≤ 1 := by
  unfold Client.share
  split <;> omega

end Tickets

/-! ### Every refresh settles its queue -/

section Settling

variable {c c' : Client} {effects : List Effect} {n : ℕ}

/-- The refresh that settles is the last one, and no other is in flight afterwards. -/
theorem Move.of_refreshSettled (hmove : Move c c' effects) (h : c.Orderly)
    {o : Except Failure (Option String)} (hmem : Effect.refreshSettled n o ∈ effects) :
    n = c.refreshCount ∧ c.isRefreshing = true ∧ c'.isRefreshing = false ∧
      c'.refreshCount = c.refreshCount ∧
        ∀ o', Effect.refreshSettled n o' ∈ effects → o' = o := by
  cases hmove with
  | send => simp at hmem
  | deliver => simp at hmem
  | reject => simp at hmem
  | enqueue => simp at hmem
  | startRefresh => simp at hmem
  | token _ hr =>
      simp at hmem
      obtain ⟨rfl, rfl⟩ := hmem
      exact ⟨(h.only hr).2, h.refreshing hr, rfl, rfl, by simp⟩
  | refreshError hr =>
      simp at hmem
      obtain ⟨rfl, rfl⟩ := hmem
      exact ⟨(h.only hr).2, h.refreshing hr, rfl, rfl, by simp⟩
  | continuation => simp at hmem
  | session => simp at hmem

/-- A step keeps the number of the refresh, or begins the next one while none is in flight. -/
theorem Move.refreshCount (hmove : Move c c' effects) :
    (c'.refreshCount = c.refreshCount ∧ (c'.isRefreshing = true → c.isRefreshing = true)) ∨
      (c.isRefreshing = false ∧ c'.isRefreshing = true ∧
        c'.refreshCount = c.refreshCount + 1) := by
  cases hmove with
  | startRefresh _ _ _ hidle => exact .inr ⟨hidle, rfl, rfl⟩
  | token => exact .inl ⟨rfl, nofun⟩
  | refreshError => exact .inl ⟨rfl, nofun⟩
  | _ => exact .inl ⟨rfl, id⟩

/-- The queue of the refresh in flight, against what is queued and settled in a step. -/
theorem Move.waiting (hmove : Move c c' effects) (h : c.Orderly) (id n : ℕ) :
    effects.countP (Effect.isQueue id n) +
        (if n = c.refreshCount then c.refreshQueue.countP (·.id = id) else 0) =
      effects.countP (Effect.isSettle id n) +
        (if n = c'.refreshCount then c'.refreshQueue.countP (·.id = id) else 0) := by
  cases hmove with
  | send => simp [Effect.isQueue, Effect.isSettle]
  | deliver => simp [Effect.isQueue, Effect.isSettle]
  | reject => simp [Effect.isQueue, Effect.isSettle]
  | enqueue =>
      by_cases hn : c.refreshCount = n
      · simp [Effect.isQueue, Effect.isSettle, List.countP_cons, hn]
        omega
      · simp [Effect.isQueue, Effect.isSettle, hn, Ne.symm hn]
  | startRefresh _ _ _ hidle => simp [Effect.isQueue, Effect.isSettle, h.idle hidle]
  | token _ hr =>
      by_cases hn : c.refreshCount = n
      · simp [Effect.isQueue, Effect.isSettle, Function.comp_def, (h.only hr).2, hn]
      · simp [Effect.isQueue, Effect.isSettle, Function.comp_def, (h.only hr).2, hn, Ne.symm hn]
  | refreshError hr =>
      by_cases hn : c.refreshCount = n
      · simp [Effect.isQueue, Effect.isSettle, Function.comp_def, (h.only hr).2, hn]
      · simp [Effect.isQueue, Effect.isSettle, Function.comp_def, (h.only hr).2, hn, Ne.symm hn]
  | continuation => simp [Effect.isQueue, Effect.isSettle]
  | session => simp

/-- Nobody is settled but with the outcome of the refresh that settles. -/
theorem Move.of_settle (hmove : Move c c' effects) {id : ℕ} {o : Except Failure (Option String)}
    (hmem : Effect.settle id n o ∈ effects) :
    Effect.refreshSettled n o ∈ effects ∧ ∀ newToken, o = .ok newToken →
      ∃ k ∈ c'.continuations, k.number = n ∧ k.sent.id = id := by
  cases hmove with
  | token _ hr =>
      simp at hmem
      obtain ⟨sent, hsent, rfl, rfl, rfl⟩ := hmem
      exact ⟨by simp, fun _ _ => ⟨_, List.mem_map_of_mem hsent, rfl, rfl⟩⟩
  | refreshError hr =>
      simp at hmem
      obtain ⟨sent, hsent, rfl, rfl, rfl⟩ := hmem
      exact ⟨by simp, nofun⟩
  | _ => simp at hmem

/-- A request is sent again when its refresh has got a token, or by its continuation. -/
theorem Move.of_retry (hmove : Move c c' effects) {sent : Sent}
    (hmem : Effect.retry n sent ∈ effects) :
    sent.request.retried = true ∧
      ((∃ newToken, Effect.refreshSettled n (.ok newToken) ∈ effects ∧
          sent.request.authorization = some (bearer newToken)) ∨
        ∃ k ∈ c.continuations, k.number = n ∧ (c.token = orEmpty k.newToken →
          sent.request.authorization = some (bearer k.newToken))) := by
  cases hmove with
  | token again hr hready hid hretried hheader =>
      simp at hmem
      obtain ⟨rfl, rfl⟩ := hmem
      exact ⟨hretried, .inl ⟨_, by simp, hheader⟩⟩
  | continuation hk hid hretried hheader =>
      simp at hmem
      obtain ⟨rfl, rfl⟩ := hmem
      exact ⟨hretried, .inr ⟨_, hk ▸ List.mem_cons_self, rfl, hheader⟩⟩
  | _ => simp at hmem

/-- A continuation stays until it has run, and then its request has been sent again. -/
theorem Move.continuation_or_retry (hmove : Move c c' effects) {k : Continuation}
    (hmem : k ∈ c.continuations) :
    k ∈ c'.continuations ∨ ∃ sent, Effect.retry k.number sent ∈ effects ∧ sent.id = k.sent.id := by
  cases hmove with
  | token _ _ hready => exact absurd (hready ▸ hmem) List.not_mem_nil
  | refreshError => exact .inl hmem
  | @continuation k' rest again hk hid =>
      rw [hk, List.mem_cons] at hmem
      rcases hmem with rfl | hmem
      · exact .inr ⟨again, List.mem_singleton_self _, hid⟩
      · exact .inl hmem
  | _ => exact .inl hmem

/-- A continuation comes from a refresh, and the token is the one of that refresh until the
continuation has run. -/
theorem Move.of_continuation (hmove : Move c c' effects) {k : Continuation}
    (hmem : k ∈ c'.continuations) :
    (k ∈ c.continuations ∧ c'.token = c.token) ∨
      (Effect.refreshSettled k.number (.ok k.newToken) ∈ effects ∧
        c'.token = orEmpty k.newToken) := by
  cases hmove with
  | token _ _ hready =>
      obtain ⟨sent, -, rfl⟩ := List.mem_map.1 hmem
      exact .inr ⟨by simp, rfl⟩
  | refreshError _ hready => exact absurd (hready ▸ hmem) List.not_mem_nil
  | continuation hk => exact .inl ⟨hk ▸ List.mem_cons_of_mem _ hmem, rfl⟩
  | session hready => exact absurd (hready ▸ hmem) List.not_mem_nil
  | _ => exact .inl ⟨hmem, rfl⟩

end Settling

/-! ### The promise is kept -/

/-- What is known of a session between two events. -/
structure Session.Kept (s : Session) : Prop where
  orderly : s.client.Orderly
  counted : s.Counted
  past : ∀ n o, Effect.refreshSettled n o ∈ s.effects →
    n ≤ s.client.refreshCount ∧ (s.client.isRefreshing = true → n ≠ s.client.refreshCount)
  one_outcome : ∀ n o o', Effect.refreshSettled n o ∈ s.effects →
    Effect.refreshSettled n o' ∈ s.effects → o = o'
  waiting : ∀ id n, s.effects.countP (Effect.isQueue id n) =
    s.effects.countP (Effect.isSettle id n) +
      if n = s.client.refreshCount then s.client.refreshQueue.countP (·.id = id) else 0
  outcome : ∀ id n o, Effect.settle id n o ∈ s.effects → Effect.refreshSettled n o ∈ s.effects
  resolved : ∀ id n newToken, Effect.settle id n (.ok newToken) ∈ s.effects →
    (∃ sent, Effect.retry n sent ∈ s.effects ∧ sent.id = id) ∨
      ∃ k ∈ s.client.continuations, k.number = n ∧ k.sent.id = id
  continuing : ∀ k ∈ s.client.continuations,
    Effect.refreshSettled k.number (.ok k.newToken) ∈ s.effects ∧
      s.client.token = orEmpty k.newToken
  new_token : ∀ n sent, Effect.retry n sent ∈ s.effects → ∃ newToken,
    Effect.refreshSettled n (.ok newToken) ∈ s.effects ∧
      sent.request.authorization = some (bearer newToken) ∧ sent.request.retried = true

theorem Session.kept_start (token : String) (legacyToken : Option String) :
    (Session.start token legacyToken).Kept where
  orderly := ⟨rfl, fun _ => rfl⟩
  counted := ⟨fun _ => Nat.le_refl 0, fun _ => Nat.le_refl 0⟩
  past := fun _ _ hmem => absurd hmem List.not_mem_nil
  one_outcome := fun _ _ _ hmem => absurd hmem List.not_mem_nil
  waiting := fun _ n => by
    change 0 = 0 + if n = 0 then 0 else 0
    split <;> rfl
  outcome := fun _ _ _ hmem => absurd hmem List.not_mem_nil
  resolved := fun _ _ _ hmem => absurd hmem List.not_mem_nil
  continuing := fun _ hmem => absurd hmem List.not_mem_nil
  new_token := fun _ _ hmem => absurd hmem List.not_mem_nil

/-- One step keeps what is known. -/
theorem Move.kept {s : Session} {c' : Client} {effects : List Effect}
    (hmove : Move s.client c' effects) (h : s.Kept) :
    (⟨c', s.effects ++ effects⟩ : Session).Kept where
  orderly := hmove.orderly h.orderly
  counted := hmove.counted h.counted
  past := by
    intro n o hmem
    change n ≤ c'.refreshCount ∧ (c'.isRefreshing = true → n ≠ c'.refreshCount)
    rcases List.mem_append.1 hmem with hmem | hmem
    · obtain ⟨hle, hne⟩ := h.past n o hmem
      rcases hmove.refreshCount with ⟨hcount, hbusy⟩ | ⟨-, -, hcount⟩
      · rw [hcount]
        exact ⟨hle, fun hrefreshing => hne (hbusy hrefreshing)⟩
      · omega
    · obtain ⟨hn, -, hidle, hcount, -⟩ := hmove.of_refreshSettled h.orderly hmem
      exact ⟨by omega, fun hrefreshing => absurd (hidle.symm.trans hrefreshing) nofun⟩
  one_outcome := by
    intro n o o' hmem hmem'
    -- A refresh that has settled is not in flight any more, so it does not settle again.
    rcases List.mem_append.1 hmem with hmem | hmem <;>
      rcases List.mem_append.1 hmem' with hmem' | hmem'
    · exact h.one_outcome n o o' hmem hmem'
    · obtain ⟨hn, hbusy, -⟩ := hmove.of_refreshSettled h.orderly hmem'
      exact absurd hn ((h.past n o hmem).2 hbusy)
    · obtain ⟨hn, hbusy, -⟩ := hmove.of_refreshSettled h.orderly hmem
      exact absurd hn ((h.past n o' hmem').2 hbusy)
    · obtain ⟨-, -, -, -, hone⟩ := hmove.of_refreshSettled h.orderly hmem'
      exact hone o hmem
  waiting := by
    intro id n
    have hs := h.waiting id n
    have hstep := hmove.waiting h.orderly id n
    rw [List.countP_append, List.countP_append]
    change _ = _ + if n = c'.refreshCount then c'.refreshQueue.countP (·.id = id) else 0
    omega
  outcome := by
    intro id n o hmem
    rcases List.mem_append.1 hmem with hmem | hmem
    · exact List.mem_append_left _ (h.outcome id n o hmem)
    · exact List.mem_append_right _ (hmove.of_settle hmem).1
  resolved := by
    intro id n newToken hmem
    rcases List.mem_append.1 hmem with hmem | hmem
    · rcases h.resolved id n newToken hmem with ⟨sent, hsent, hid⟩ | ⟨k, hk, rfl, hid⟩
      · exact .inl ⟨sent, List.mem_append_left _ hsent, hid⟩
      · rcases hmove.continuation_or_retry hk with hk | ⟨sent, hsent, hid'⟩
        · exact .inr ⟨k, hk, rfl, hid⟩
        · exact .inl ⟨sent, List.mem_append_right _ hsent, hid'.trans hid⟩
    · exact .inr ((hmove.of_settle hmem).2 newToken rfl)
  continuing := by
    intro k hk
    rcases hmove.of_continuation hk with ⟨hk, htoken⟩ | ⟨hsettled, htoken⟩
    · obtain ⟨hsettled, hs⟩ := h.continuing k hk
      exact ⟨List.mem_append_left _ hsettled, htoken.trans hs⟩
    · exact ⟨List.mem_append_right _ hsettled, htoken⟩
  new_token := by
    intro n sent hmem
    rcases List.mem_append.1 hmem with hmem | hmem
    · obtain ⟨newToken, hsettled, hsent⟩ := h.new_token n sent hmem
      exact ⟨newToken, List.mem_append_left _ hsettled, hsent⟩
    · obtain ⟨hretried, ⟨newToken, hsettled, hheader⟩ | ⟨k, hk, rfl, hheader⟩⟩ :=
        hmove.of_retry hmem
      · exact ⟨newToken, List.mem_append_right _ hsettled, hheader, hretried⟩
      · obtain ⟨hsettled, htoken⟩ := h.continuing k hk
        exact ⟨k.newToken, List.mem_append_left _ hsettled, hheader htoken, hretried⟩

theorem Session.Kept.perform {s : Session} (h : s.Kept) (e : Event) : (s.perform e).Kept := by
  unfold Session.perform
  cases hstep : s.client.step e with
  | none => exact h
  | some p => exact (Move.of_step hstep).kept h

/-- Whatever happens keeps what is known. -/
theorem Session.Kept.run {s : Session} (h : s.Kept) (events : List Event) :
    (s.run events).Kept := by
  induction events generalizing s with
  | nil => exact h
  | cons e events ih => exact ih (h.perform e)

theorem Session.Kept.silentRefresh {s : Session} (h : s.Kept) : SilentRefresh s where
  one_in_flight := by
    have hlength := congrArg List.length h.orderly.flag
    rw [List.length_map] at hlength
    rw [hlength]
    split <;> simp
  one_retry := fun id => by
    have hle := h.counted.tickets id
    have hone := s.client.share_le_one id
    omega
  one_queue := fun id => by
    have hle := h.counted.fresh id
    have hone := s.client.share_le_one id
    omega
  one_outcome := h.one_outcome
  settled := by
    intro n o hmem id
    have hwaiting := h.waiting id n
    -- The queue is the one of the refresh in flight, and this one has settled.
    have hnone : (if n = s.client.refreshCount then
        s.client.refreshQueue.countP (·.id = id) else 0) = 0 := by
      split
      next hn =>
        have hidle : s.client.isRefreshing = false :=
          Bool.eq_false_iff.2 fun hbusy => (h.past n o hmem).2 hbusy hn
        rw [h.orderly.idle hidle]
        rfl
      next => rfl
    omega
  outcome := h.outcome
  empty := fun hnone => by
    have hflag := h.orderly.flag
    rw [hnone, List.map_nil] at hflag
    refine h.orderly.idle ?_
    by_contra hbusy
    rw [if_pos (Bool.not_eq_false _ ▸ hbusy)] at hflag
    cases hflag
  resolved := h.resolved
  new_token := h.new_token

/-- **The interceptor keeps its promise**, whatever is answered and in which order. -/
theorem silentRefresh_run (token : String) (legacyToken : Option String) (events : List Event) :
    SilentRefresh ((Session.start token legacyToken).run events) :=
  ((Session.kept_start token legacyToken).run events).silentRefresh

/-- Two requests fail while the queue is shown, and one refresh sends both again. -/
def twoFailures : List Event :=
  let first : Sent := ⟨0, "/media", some "Bearer old", false⟩
  let second : Sent := ⟨1, "/queue", some "Bearer old", false⟩
  [.request "/media", .request "/queue", .failure first "/queue" (some 401),
    .failure second "/queue" (some 401),
    .refreshed ⟨1, { first with request := { first.request with retried := true } }⟩
      (.data (some "new") none),
    .continuation]

example :
    let s := (Session.start "old" none).run twoFailures
    s.client.inFlight.map (fun sent => (sent.id, sent.request.authorization)) =
      [(0, some "Bearer new"), (1, some "Bearer new")] := by
  decide +kernel

end ApiClient

end Hygie
