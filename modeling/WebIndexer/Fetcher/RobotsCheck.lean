import WebIndexer.Circuit.CircuitBreaker
import WebIndexer.Fetcher.Domain
import WebIndexer.Fetcher.Robots
import WebIndexer.Library.InsertionMap

/-! `checkRobotsTxt` of `src/fetcher.ts` from end to end: the page fetcher with its filter of
content types, the breaker around it, the parser and the cache. The servers are a function of the
address; the requests of the fetcher, event by event, come to the same where the network answers
as it says.
-/

namespace WebIndexer.Fetcher

open WebIndexer.Circuit
open WebIndexer.Library
open WebIndexer.Runtime

/-- What a server answers to a request, with the text that the handler decodes its body to. A
header that is missing is the empty string.
-/
structure IncomingMessage where
  statusCode : Nat
  location : String
  contentType : String
  html : String
  deriving DecidableEq, Repr

/-- `FetchResult`. -/
structure FetchResult where
  html : String
  finalUrl : String
  deriving DecidableEq, Repr

/-- The content types that the handler does not reject as no HTML. -/
def namesHtml (contentType : String) : Bool :=
  includes contentType.toLower "text/html" || includes contentType.toLower "xhtml"

example : namesHtml "text/plain; charset=utf-8" = false := by decide +kernel

/-- What the servers answer to a request to an address; `none` is an error or a time-out. -/
abbrev Servers := String → Option IncomingMessage

/-- The state that a rejected or resolved promise leaves behind; the outer `none` is a
`Location` that cannot be resolved, which throws out of the handler and ends the process.
-/
abbrev Settlement := Option (Option FetchResult)

/-- `fetchHtmlRaw` with the number of requests that it may still issue: six at first, for the
address itself and five redirects.
-/
def fetchHtmlRaw (api : UrlApi) (servers : Servers) (url : String) : Nat → Settlement
  | 0 => some none
  | requests + 1 =>
      if requestable api url then
        match servers url with
        | none => some none
        | some res =>
            if 300 ≤ res.statusCode ∧ res.statusCode < 400 ∧ res.location ≠ "" then
              (redirectTarget api res.location url).bind fun target =>
                fetchHtmlRaw api servers target requests
            else if 500 ≤ res.statusCode then
              some none
            else if namesHtml res.contentType then
              some (some ⟨res.html, url⟩)
            else
              some none
      else
        some none

/-- `fetchHtml`: the breaker rejects the call, or starts it and records how it ends. -/
def fetchHtml (api : UrlApi) (servers : Servers) (breaker : CircuitBreaker) (now : Nat)
    (url : String)
    : Option (CircuitBreaker × Option FetchResult) :=
  match breaker.gate now with
  | (gated, .rejected _) => some (gated, none)
  | (gated, .started) =>
      (fetchHtmlRaw api servers url 6).map fun result =>
        (gated.settle now result.isSome, result)

/-- The rules of each origin, or `none` for an origin without any. -/
abbrev RobotsCache := InsertionMap String (Option (List String))

/-- The entry of an origin with the given rules. -/
def robotsEntry (rules : List String) : Option (List String) :=
  if rules = [] then none else some rules

/-- `robotsCache.set(origin, ...)` and the eviction after it. -/
def cacheRules (cache : RobotsCache) (origin : String) (rules : List String) : RobotsCache :=
  let added := cache.set origin (robotsEntry rules)
  if Config.robotsCacheMax < added.size then
    added.dropOldest ((Config.robotsCacheMax + 1) / 2)
  else
    added

/-- What `checkRobotsTxt` returns, with the cache and the breaker that it leaves. -/
structure Checked where
  allowed : Bool
  cache : RobotsCache
  breaker : CircuitBreaker

/-- `checkRobotsTxt`. Its `catch` takes an address that cannot be parsed, and every rejection of
the fetch, as allowed, and caches that under the address.
-/
def checkRobotsTxt (api : UrlApi) (servers : Servers) (breaker : CircuitBreaker) (now : Nat)
    (cache : RobotsCache) (url : String)
    : Option Checked :=
  match api.parse url with
  | none => some ⟨true, cache.set url none, breaker⟩
  | some parsed =>
      match cache.get? parsed.origin with
      | some none => some ⟨true, cache, breaker⟩
      | some (some cached) => some ⟨!cached.any (startsWith parsed.pathname), cache, breaker⟩
      | none =>
          (fetchHtml api servers breaker now (parsed.origin ++ "/robots.txt")).map fun fetched =>
            match fetched.2 with
            | none => ⟨true, cache.set url none, fetched.1⟩
            | some res =>
                let blocked := parseRobotsTxt res.html
                ⟨!blocked.any (startsWith parsed.pathname),
                  cacheRules cache parsed.origin blocked, fetched.1⟩

variable {api : UrlApi} {servers : Servers} {breaker : CircuitBreaker} {now : Nat}
  {url robotsUrl : String} {parsed : Url} {res : IncomingMessage}

/-- The check refuses the address exactly when a rule of the body blocks its path, and leaves
these rules in the cache under its origin.
-/
def Honours (checked : Checked) (parsed : Url) (body : String) : Prop :=
  (checked.allowed = false
    ↔ ∃ path ∈ parseRobotsTxt body, startsWith parsed.pathname path = true)
  ∧ checked.cache.get? parsed.origin = some (robotsEntry (parseRobotsTxt body))

/-- The request for an address is issued, and its answer is taken for a page. -/
def ReadAsPage (api : UrlApi) (breaker : CircuitBreaker) (now : Nat) (url : String)
    (res : IncomingMessage)
    : Prop :=
  (breaker.gate now).2 = .started
  ∧ requestable api url = true
  ∧ namesHtml res.contentType = true

/-- An answer of status 200 that is read as a page is fetched. -/
theorem fetchHtml_of_readAsPage (served : servers url = some res) (ok : res.statusCode = 200)
    (read : ReadAsPage api breaker now url res)
    : ∃ after, fetchHtml api servers breaker now url = some (after, some ⟨res.html, url⟩) := by
  obtain ⟨started, issued, html⟩ := read
  have fetched : fetchHtmlRaw api servers url 6 = some (some ⟨res.html, url⟩) := by
    simp [fetchHtmlRaw, issued, served, ok, html]
  refine ⟨(breaker.gate now).1.settle now true, ?_⟩
  unfold fetchHtml
  split
  · rename_i gated reason gate
    rw [gate] at started
    cases started
  · rename_i gated gate
    rw [fetched, gate]
    rfl

/-- Any other answer of status 200 counts as a rejection. -/
theorem fetchHtml_of_not_readAsPage (served : servers url = some res)
    (ok : res.statusCode = 200) (unread : ¬ ReadAsPage api breaker now url res)
    : ∃ after, fetchHtml api servers breaker now url = some (after, none) := by
  unfold fetchHtml
  split
  · exact ⟨_, rfl⟩
  · rename_i gated gate
    have started : (breaker.gate now).2 = .started := congrArg Prod.snd gate
    have rejected : fetchHtmlRaw api servers url 6 = some none := by
      by_cases issued : requestable api url = true
      · have other : ¬ namesHtml res.contentType = true :=
          fun html => unread ⟨started, issued, html⟩
        simp [fetchHtmlRaw, issued, served, ok, other]
      · simp [fetchHtmlRaw, issued]
    rw [rejected]
    exact ⟨_, rfl⟩

/-- The cache holds the rules of an origin that has just been added to an empty one. -/
theorem get?_cacheRules_empty (origin : String) (rules : List String)
    : (cacheRules .empty origin rules).get? origin = some (robotsEntry rules) := by
  have small : ¬ Config.robotsCacheMax
      < (InsertionMap.empty.set origin (robotsEntry rules)).size := by
    simp [InsertionMap.size, InsertionMap.set, InsertionMap.empty, Config.robotsCacheMax]
  unfold cacheRules
  rw [if_neg small]
  exact InsertionMap.get?_set_self ..

/-- An address that was added to an empty cache without rules stands for its origin when it
is written so, and the origin has no rules.
-/
theorem get?_rejection_iff {origin : String} {rules : List String}
    : ((InsertionMap.empty : RobotsCache).set url none).get? origin = some (robotsEntry rules)
      ↔ rules = [] ∧ url = origin := by
  have entries : ((InsertionMap.empty : RobotsCache).set url none).entries = [(url, none)] :=
    rfl
  rw [InsertionMap.get?_eq_some_iff, entries, List.mem_singleton, Prod.mk.injEq]
  unfold robotsEntry
  by_cases empty : rules = []
  · simp [empty, eq_comm]
  · simp [empty]

/-- A check with an empty cache that fetches a page leaves its rules. -/
theorem honours_of_page {checked : Checked} {after : CircuitBreaker} {page : FetchResult}
    (valid : api.parse url = some parsed)
    (fetched : fetchHtml api servers breaker now (parsed.origin ++ "/robots.txt")
      = some (after, some page))
    (result : checkRobotsTxt api servers breaker now .empty url = some checked)
    : Honours checked parsed page.html := by
  have uncached : (InsertionMap.empty : RobotsCache).get? parsed.origin = none := rfl
  simp only [checkRobotsTxt, valid, uncached, fetched, Option.map_some,
    Option.some.injEq] at result
  subst result
  refine ⟨?_, get?_cacheRules_empty ..⟩
  rw [Bool.not_eq_false', List.any_eq_true]

/-- A check with an empty cache whose fetch is rejected honours only an origin without rules,
of an address that is written as its origin is.
-/
theorem honours_iff_of_rejection {checked : Checked} {after : CircuitBreaker} {body : String}
    (valid : api.parse url = some parsed)
    (rejected : fetchHtml api servers breaker now (parsed.origin ++ "/robots.txt")
      = some (after, none))
    (result : checkRobotsTxt api servers breaker now .empty url = some checked)
    : Honours checked parsed body ↔ parseRobotsTxt body = [] ∧ url = parsed.origin := by
  have uncached : (InsertionMap.empty : RobotsCache).get? parsed.origin = none := rfl
  simp only [checkRobotsTxt, valid, uncached, rejected, Option.map_some,
    Option.some.injEq] at result
  subst result
  unfold Honours
  rw [get?_rejection_iff]
  constructor
  · intro honours
    exact honours.2
  · intro bare
    refine ⟨?_, bare⟩
    simp [bare.1]

/-- A check with an empty cache ends, and honours an answer of status 200 to the request for
robots.txt exactly when the answer is read as a page, or has no rules while the address is
written as its origin is.
-/
theorem checkRobotsTxt_honours_iff (valid : api.parse url = some parsed)
    (served : servers (parsed.origin ++ "/robots.txt") = some res)
    (ok : res.statusCode = 200)
    : ∃ checked,
        checkRobotsTxt api servers breaker now .empty url = some checked
        ∧ (Honours checked parsed res.html
          ↔ ReadAsPage api breaker now (parsed.origin ++ "/robots.txt") res
            ∨ parseRobotsTxt res.html = [] ∧ url = parsed.origin) := by
  have ends {after : CircuitBreaker} {result : Option FetchResult}
      (fetched : fetchHtml api servers breaker now (parsed.origin ++ "/robots.txt")
        = some (after, result))
      : ∃ checked, checkRobotsTxt api servers breaker now .empty url = some checked := by
    have uncached : (InsertionMap.empty : RobotsCache).get? parsed.origin = none := rfl
    simp only [checkRobotsTxt, valid, uncached, fetched, Option.map_some]
    exact ⟨_, rfl⟩
  by_cases read : ReadAsPage api breaker now (parsed.origin ++ "/robots.txt") res
  · obtain ⟨after, fetched⟩ := fetchHtml_of_readAsPage served ok read
    obtain ⟨checked, result⟩ := ends fetched
    have honours : Honours checked parsed res.html := honours_of_page valid fetched result
    exact ⟨checked, result, iff_of_true honours (.inl read)⟩
  · obtain ⟨after, rejected⟩ := fetchHtml_of_not_readAsPage served ok read
    obtain ⟨checked, result⟩ := ends rejected
    refine ⟨checked, result, (honours_iff_of_rejection valid rejected result).trans ?_⟩
    exact ⟨.inr, fun condition => condition.resolve_left read⟩

/-- A robots.txt that blocks every path. -/
def blockAll (contentType : String) : IncomingMessage :=
  ⟨200, "", contentType, "User-agent: *\nDisallow: /"⟩

/-- Servers of which one has this robots.txt, and the others do not answer. -/
def blockingServers (contentType : String) : Servers := fun url =>
  if url = "https://a.example/robots.txt" then some (blockAll contentType) else none

/-- A page of that server. -/
def newsUrl : Url :=
  ⟨"https://a.example/news", "https:", "https://a.example", "a.example", "/news"⟩

/-- The breaker of the fetcher, as the module creates it. -/
def httpBreaker : CircuitBreaker :=
  .create { name := some "http-fetch", failureThreshold := some 50, resetTimeout := some 8000 } 0

/-- A robots.txt that is served as a page is honoured. -/
theorem checkRobotsTxt_honours_html
    : ∃ checked,
        checkRobotsTxt plainUrlApi (blockingServers "text/html") httpBreaker 0 .empty
            newsUrl.href
          = some checked
        ∧ Honours checked newsUrl (blockAll "text/html").html := by
  have valid : plainUrlApi.parse newsUrl.href = some newsUrl := by decide +kernel
  have served : blockingServers "text/html" (newsUrl.origin ++ "/robots.txt")
      = some (blockAll "text/html") := by
    decide +kernel
  have read : ReadAsPage plainUrlApi httpBreaker 0 (newsUrl.origin ++ "/robots.txt")
      (blockAll "text/html") := by
    refine ⟨?_, ?_, ?_⟩ <;> decide +kernel
  obtain ⟨checked, result, honours⟩ := checkRobotsTxt_honours_iff valid served rfl
  exact ⟨checked, result, honours.mpr (.inl read)⟩

/-- A robots.txt that is served as plain text is not. -/
theorem checkRobotsTxt_ignores_plain_text
    : ¬ ∀ api servers breaker now url parsed res,
        api.parse url = some parsed →
          servers (parsed.origin ++ "/robots.txt") = some res →
          res.statusCode = 200 →
          res.contentType = "text/plain" →
          ∃ checked,
            checkRobotsTxt api servers breaker now .empty url = some checked
            ∧ Honours checked parsed res.html := by
  intro claim
  obtain ⟨checked, result, honours⟩ := claim plainUrlApi (blockingServers "text/plain")
    httpBreaker 0 newsUrl.href newsUrl (blockAll "text/plain") (by decide +kernel)
    (by decide +kernel) rfl rfl
  have allowed
      : (checkRobotsTxt plainUrlApi (blockingServers "text/plain") httpBreaker 0 .empty
          newsUrl.href).map Checked.allowed
        = some true := by
    decide +kernel
  have blocked : ∃ path ∈ parseRobotsTxt (blockAll "text/plain").html,
      startsWith newsUrl.pathname path = true := by
    decide +kernel
  have refused : checked.allowed = false := honours.1.mpr blocked
  rw [result, Option.map_some, refused] at allowed
  exact absurd allowed (by decide)

end WebIndexer.Fetcher
