/-
**The image proxy.**

The endpoint fetches an image for a browser that cannot send a token, so it is open to everyone.
It asks only hosts and ports that are configured, or that serve posters for everyone, and follows
redirects by itself in order to look at every target: it must be allowed, and its host must not
lead to the machine itself.

How a URL is taken apart is a parameter, as is what the network answers: the theorems hold for
whatever a server sends, and whatever a name leads to from one moment to the next.

Main definitions:

* `UrlLib`, `Upstream` — what is taken from the runtime, and the network;
* `addUrlToWhitelist`, `proxyWhitelist`, `isUrlAllowed` — the whitelist;
* `followRedirects`, `proxyImage` — the endpoint, with what it does on the network;
* `SafeRequests` — every request is allowed and comes right after a check of its host.

Main results:

* `safeRequests_proxyImage` — **the proxy never leaves the whitelist**;
* `mem_proxyWhitelist` — what the whitelist consists of.
-/

import Hygie.PyText

set_option relaxedAutoImplicit false
set_option autoImplicit false

namespace Hygie

open PyText

/-! ### URLs -/

/-- What is read of a URL; nothing stands for a port that is no number. -/
structure ParsedUrl where
  scheme : String
  hostname : Option String
  port : Option (Option ℕ)

/-- `urlparse`, `urljoin` and `str.lower`; nothing stands for an exception. -/
structure UrlLib where
  urlparse : String → Option ParsedUrl
  urljoin : String → String → Option String
  lower : String → String

section Proxy

variable (lib : UrlLib)

/-- `(parsed.hostname or "").lower()`. -/
def ParsedUrl.host (p : ParsedUrl) : String := lib.lower (p.hostname.getD "")

/-- `parsed.port or (443 if parsed.scheme == "https" else 80)`, for the port that is read. -/
def portOr (scheme : String) (port : Option ℕ) : ℕ :=
  let default := if scheme = "https" then 443 else 80
  match port with
  | some n => if n = 0 then default else n
  | none => default

/-- The host and the port that a URL leads to. -/
def ParsedUrl.target (p : ParsedUrl) : Option (String × ℕ) :=
  p.port.map fun port => (p.host lib, portOr p.scheme port)

/-! ### The whitelist -/

/-- `_add_url_to_whitelist`. -/
def addUrlToWhitelist (allowed : List (String × ℕ)) (url : String) : List (String × ℕ) :=
  match lib.urlparse url with
  | none => allowed
  | some p =>
      if p.host lib = "" then allowed
      else
        match p.target lib with
        | none => allowed
        | some pair => if pair ∈ allowed then allowed else allowed ++ [pair]

/-- The hosts of posters. -/
def cdnHosts : List String :=
  ["image.tmdb.org", "artworks.thetvdb.com", "thetvdb.com", "fanart.tv", "assets.fanart.tv"]

/-- `_get_proxy_whitelist`, where it builds the set: from the settings of the single servers, and
the `url` and `ext_url` of the media servers. -/
def proxyWhitelist (settings : List String) (servers : List (Option String × Option String)) :
    List (String × ℕ) :=
  let cdn := cdnHosts.flatMap fun host => [(host, 443), (host, 80)]
  let urls := settings ++
    servers.flatMap fun server => [strip (server.1.getD ""), strip (server.2.getD "")]
  (urls.filter (· ≠ "")).foldl (addUrlToWhitelist lib) cdn

/-- `_is_url_allowed`. -/
def isUrlAllowed (url : String) (allowed : List (String × ℕ)) : Bool :=
  match lib.urlparse url with
  | none => false
  | some p =>
      (p.scheme = "http" || p.scheme = "https") && (p.target lib).any fun pair => pair ∈ allowed

/-! ### The network -/

/-- What is asked of an address. -/
structure Address where
  isLoopback : Bool
  isLinkLocal : Bool

/-- `is_loopback_or_link_local`, for the addresses that a name leads to; one that cannot be read
ends the search. -/
def isLoopbackOrLinkLocal : List (Option Address) → Bool
  | [] => false
  | none :: _ => false
  | some ip :: infos => ip.isLoopback || ip.isLinkLocal || isLoopbackOrLinkLocal infos

/-- What a server answers: the headers that are read, and the body in chunks, which may break
off. -/
structure UpstreamReply where
  status : ℕ
  location : Option String := none
  contentType : Option String := none
  chunks : List (List UInt8) := []
  breaks : Bool := false

/-- The surroundings of one call: the whitelist that it reads, the addresses that a name leads to
at each check, and the answer to each request.  Nothing stands for an exception. -/
structure Upstream where
  whitelist : Option (List (String × ℕ))
  lookups : ℕ → List (Option Address)
  replies : ℕ → Option UpstreamReply

/-- What the proxy does on the network. -/
inductive ProxyEvent
  | checked (host : String) (blocked : Bool)
  | requested (url : String)
  deriving DecidableEq, Repr

/-- What the proxy answers. -/
structure ProxyResponse where
  status : ℕ
  text : String := ""
  content : List UInt8 := []
  mediaType : Option String := none
  deriving DecidableEq, Repr

/-! ### The endpoint -/

/-- `_PROXY_MAX_BYTES`. -/
def proxyMaxBytes : ℕ := 10 * 1024 * 1024

/-- The chunks together, unless they get too large. -/
def readChunks : ℕ → List (List UInt8) → Option (List UInt8)
  | _, [] => some []
  | total, chunk :: chunks =>
      if total + chunk.length > proxyMaxBytes then none
      else (readChunks (total + chunk.length) chunks).map (chunk ++ ·)

/-- What becomes of an answer with status 200. -/
def imageResponse (reply : UpstreamReply) : ProxyResponse :=
  let ct := reply.contentType.getD "image/jpeg"
  if startsWith ct "image/" then
    match readChunks 0 reply.chunks with
    | none => { status := 413 }
    | some content =>
        if reply.breaks then { status := 404 }
        else { status := 200, content := content, mediaType := some ct }
  else { status := 415 }

/-- The loop of `proxy_image`, with the number of rounds that are left: what it does on the
network, and what it answers. -/
def followRedirects (env : Upstream) (allowed : List (String × ℕ)) :
    ℕ → ℕ → String → List ProxyEvent × ProxyResponse
  | 0, _, _ => ([], { status := 404 })
  | n + 1, i, url =>
      let after : List ProxyEvent × ProxyResponse :=
        match env.replies i with
        | none => ([], { status := 404 })
        | some reply =>
            if reply.status ∈ [301, 302, 303, 307, 308] then
              match lib.urljoin url (reply.location.getD "") with
              | none => ([], { status := 404 })
              | some next =>
                  if isUrlAllowed lib next allowed then
                    let host := ((lib.urlparse next).map (·.host lib)).getD ""
                    if isLoopbackOrLinkLocal (env.lookups (i + 1)) then
                      ([.checked host true], { status := 403 })
                    else
                      let later := followRedirects env allowed n (i + 1) next
                      (.checked host false :: later.1, later.2)
                  else ([], { status := 403 })
            else if reply.status = 200 then ([], imageResponse reply)
            else ([], { status := 404 })
      (.requested url :: after.1, after.2)

/-- `_PROXY_MAX_REDIRECTS`. -/
def proxyMaxRedirects : ℕ := 3

/-- `proxy_image`. -/
def proxyImage (env : Upstream) (targetUrl : String) : List ProxyEvent × ProxyResponse :=
  if targetUrl = "" then ([], { status := 400 })
  else
    match lib.urlparse targetUrl with
    | none => ([], { status := 404 })
    | some parsed =>
        if parsed.scheme = "http" ∨ parsed.scheme = "https" then
          match env.whitelist with
          | none => ([], { status := 404 })
          | some allowed =>
              let host := parsed.host lib
              if isUrlAllowed lib targetUrl allowed then
                if isLoopbackOrLinkLocal (env.lookups 0) then
                  ([.checked host true], { status := 403 })
                else
                  let later := followRedirects lib env allowed (proxyMaxRedirects + 1) 0 targetUrl
                  (.checked host false :: later.1, later.2)
              else ([], { status := 403, text := "Host not allowed: " ++ host })
        else ([], { status := 400 })

/-! ### What is asked -/

/-- A URL that may be requested: it is `http` or `https`, and leads to a pair of the list. -/
def Permitted (allowed : List (String × ℕ)) (url : String) : Prop :=
  ∃ p pair, lib.urlparse url = some p ∧ (p.scheme = "http" ∨ p.scheme = "https") ∧
    p.target lib = some pair ∧ pair ∈ allowed

/-- The host of the URL has just been found not to lead to the machine itself. -/
def JustChecked (url : String) (e : ProxyEvent) : Prop :=
  ∃ p, lib.urlparse url = some p ∧ e = .checked (p.host lib) false

/-- **Every request is permitted and comes right after a check of its host.** -/
def SafeRequests (allowed : List (String × ℕ)) (events : List ProxyEvent) : Prop :=
  ∀ before url after, events = before ++ .requested url :: after →
    Permitted lib allowed url ∧ ∃ earlier e, before = earlier ++ [e] ∧ JustChecked lib url e

/-- The number of requests. -/
def requestCount (events : List ProxyEvent) : ℕ :=
  events.countP fun e => match e with
    | .requested _ => true
    | .checked _ _ => false

/-! ### The loop -/

variable {lib} {allowed : List (String × ℕ)}

theorem isUrlAllowed_iff {url : String} :
    isUrlAllowed lib url allowed = true ↔ Permitted lib allowed url := by
  unfold isUrlAllowed Permitted
  cases hparse : lib.urlparse url with
  | none => simp
  | some p =>
      simp only [Bool.and_eq_true, Bool.or_eq_true, decide_eq_true_eq, Option.any_eq_true,
        Option.some.injEq]
      constructor
      · rintro ⟨hscheme, pair, hpair, hmem⟩
        exact ⟨p, pair, rfl, hscheme, hpair, hmem⟩
      · rintro ⟨q, pair, rfl, hscheme, hpair, hmem⟩
        exact ⟨hscheme, pair, hpair, hmem⟩

/-- A request is safe behind an event that checks its host, and the later ones are safe. -/
theorem SafeRequests.requested {e : ProxyEvent} {url : String} {events : List ProxyEvent}
    (hurl : Permitted lib allowed url) (he : JustChecked lib url e)
    (h : SafeRequests lib allowed events) :
    SafeRequests lib allowed (e :: .requested url :: events) := by
  obtain ⟨p, -, rfl⟩ := id he
  intro before url' after heq
  -- the request is the second event, or one of the later ones
  match before, heq with
  | [], heq => exact absurd (List.cons.inj heq).1 nofun
  | [b], heq =>
      obtain ⟨hb, hrest⟩ := List.cons.inj heq
      obtain ⟨hurl', -⟩ := List.cons.inj hrest
      obtain rfl := ProxyEvent.requested.inj hurl'
      subst hb
      exact ⟨hurl, [], _, rfl, he⟩
  | b :: b' :: before, heq =>
      obtain ⟨hb, hrest⟩ := List.cons.inj heq
      obtain ⟨hb', hlater⟩ := List.cons.inj hrest
      subst hb hb'
      obtain ⟨hpermitted, earlier, e', rfl, he'⟩ := h before url' after hlater
      exact ⟨hpermitted, _ :: _ :: earlier, e', rfl, he'⟩

theorem safeRequests_of_requestCount {events : List ProxyEvent} (h : requestCount events = 0) :
    SafeRequests lib allowed events := by
  intro before url after heq
  subst heq
  have hzero := List.countP_eq_zero.1 h (.requested url)
    (List.mem_append_right _ List.mem_cons_self)
  exact absurd rfl hzero

/-- The loop, behind the check of the first host. -/
theorem safeRequests_followRedirects (env : Upstream) (n i : ℕ) {url : String} {e : ProxyEvent}
    (hurl : Permitted lib allowed url) (he : JustChecked lib url e) :
    SafeRequests lib allowed (e :: (followRedirects lib env allowed n i url).1) := by
  induction n generalizing i url e with
  | zero =>
      obtain ⟨p, -, rfl⟩ := he
      exact safeRequests_of_requestCount rfl
  | succ n ih =>
      unfold followRedirects
      refine SafeRequests.requested hurl he ?_
      split
      next => exact safeRequests_of_requestCount rfl
      next reply hreply =>
        split
        next =>
          split
          next => exact safeRequests_of_requestCount rfl
          next next hnext =>
            split
            next hallowed =>
              -- the next URL is checked before it is requested
              split
              next => exact safeRequests_of_requestCount rfl
              next =>
                have hpermitted := isUrlAllowed_iff.1 hallowed
                obtain ⟨p, pair, hparse, -⟩ := id hpermitted
                refine ih (i + 1) hpermitted ⟨p, hparse, ?_⟩
                rw [hparse]
                rfl
            next => exact safeRequests_of_requestCount rfl
        next =>
          split
          next => exact safeRequests_of_requestCount rfl
          next => exact safeRequests_of_requestCount rfl

theorem requestCount_followRedirects (env : Upstream) (n i : ℕ) (url : String) :
    requestCount (followRedirects lib env allowed n i url).1 ≤ n := by
  induction n generalizing i url with
  | zero => exact le_rfl
  | succ n ih =>
      have hcons : ∀ events : List ProxyEvent, requestCount events ≤ n →
          requestCount (.requested url :: events) ≤ n + 1 := by
        intro events h
        unfold requestCount at h ⊢
        rw [List.countP_cons_of_pos rfl]
        omega
      have hchecked : ∀ (host : String) (blocked : Bool) (events : List ProxyEvent),
          requestCount (.checked host blocked :: events) = requestCount events := by
        intro host blocked events
        exact List.countP_cons_of_neg Bool.false_ne_true
      unfold followRedirects
      refine hcons _ ?_
      split
      next => exact Nat.zero_le n
      next reply hreply =>
        split
        next =>
          split
          next => exact Nat.zero_le n
          next next hnext =>
            split
            next =>
              split
              next => exact Nat.zero_le n
              next =>
                rw [hchecked]
                exact ih (i + 1) next
            next => exact Nat.zero_le n
        next =>
          split
          next => exact Nat.zero_le n
          next => exact Nat.zero_le n

/-- **The proxy never leaves the whitelist**: for every URL that is asked for, whatever the servers
answer and the names lead to, every request is permitted by the whitelist that was read, comes
right after a check of its host, and is one of four at most. -/
theorem safeRequests_proxyImage (lib : UrlLib) (env : Upstream) (targetUrl : String) :
    SafeRequests lib (env.whitelist.getD []) (proxyImage lib env targetUrl).1 ∧
      requestCount (proxyImage lib env targetUrl).1 ≤ 4 := by
  have hnone : ∀ events : List ProxyEvent, requestCount events = 0 →
      SafeRequests lib (env.whitelist.getD []) events ∧ requestCount events ≤ 4 := by
    intro events h
    exact ⟨safeRequests_of_requestCount h, by omega⟩
  unfold proxyImage
  split
  next => exact hnone _ rfl
  next =>
    split
    next => exact hnone _ rfl
    next parsed hparse =>
      split
      next =>
        split
        next => exact hnone _ rfl
        next allowed hwhitelist =>
          dsimp only
          split
          next hallowed =>
            split
            next => exact hnone _ rfl
            next =>
              rw [hwhitelist]
              refine ⟨safeRequests_followRedirects env _ 0 (isUrlAllowed_iff.1 hallowed)
                ⟨parsed, hparse, rfl⟩, ?_⟩
              have hcount : requestCount (.checked (parsed.host lib) false ::
                  (followRedirects lib env allowed (proxyMaxRedirects + 1) 0 targetUrl).1) =
                  requestCount
                    (followRedirects lib env allowed (proxyMaxRedirects + 1) 0 targetUrl).1 :=
                List.countP_cons_of_neg Bool.false_ne_true
              exact hcount.trans_le (requestCount_followRedirects env _ 0 targetUrl)
          next => exact hnone _ rfl
      next => exact hnone _ rfl

/-- **What the whitelist consists of**: the hosts of posters on the two ports, and where the
configured URLs lead to. -/
theorem mem_proxyWhitelist {settings : List String}
    {servers : List (Option String × Option String)} {pair : String × ℕ}
    (h : pair ∈ proxyWhitelist lib settings servers) :
    (pair.1 ∈ cdnHosts ∧ (pair.2 = 443 ∨ pair.2 = 80)) ∨
      ∃ url p, lib.urlparse url = some p ∧ p.target lib = some pair ∧ p.host lib ≠ "" ∧
        (url ∈ settings ∨ ∃ server ∈ servers,
          url = strip (server.1.getD "") ∨ url = strip (server.2.getD "")) := by
  -- the loop over the URLs only adds pairs that one of them leads to
  have hadd : ∀ (urls : List String) (allowed : List (String × ℕ)),
      pair ∈ urls.foldl (addUrlToWhitelist lib) allowed → pair ∈ allowed ∨
        ∃ url p, lib.urlparse url = some p ∧ p.target lib = some pair ∧ p.host lib ≠ "" ∧
          url ∈ urls := by
    intro urls
    induction urls with
    | nil => exact fun allowed hmem => .inl hmem
    | cons url urls ih =>
        intro allowed hmem
        rcases ih _ hmem with hmem | ⟨url', p, hparse, htarget, hhost, hurl'⟩
        · unfold addUrlToWhitelist at hmem
          split at hmem
          next => exact .inl hmem
          next p hparse =>
            split at hmem
            next => exact .inl hmem
            next hhost =>
              split at hmem
              next => exact .inl hmem
              next new htarget =>
                split at hmem
                next => exact .inl hmem
                next =>
                  rcases List.mem_append.1 hmem with hmem | hmem
                  · exact .inl hmem
                  · obtain rfl := List.mem_singleton.1 hmem
                    exact .inr ⟨url, p, hparse, htarget, hhost, List.mem_cons_self⟩
        · exact .inr ⟨url', p, hparse, htarget, hhost, List.mem_cons_of_mem _ hurl'⟩
  rcases hadd _ _ h with hcdn | ⟨url, p, hparse, htarget, hhost, hurl⟩
  · obtain ⟨host, hhost, hpair⟩ := List.mem_flatMap.1 hcdn
    rcases List.mem_cons.1 hpair with rfl | hpair
    · exact .inl ⟨hhost, .inl rfl⟩
    · obtain rfl := List.mem_singleton.1 hpair
      exact .inl ⟨hhost, .inr rfl⟩
  · refine .inr ⟨url, p, hparse, htarget, hhost, ?_⟩
    rcases List.mem_append.1 (List.mem_of_mem_filter hurl) with hsetting | hserver
    · exact .inl hsetting
    · obtain ⟨server, hmem, hfield⟩ := List.mem_flatMap.1 hserver
      exact .inr ⟨server, hmem, by simpa using hfield⟩

end Proxy

end Hygie
