import WebIndexer.Fetcher.RobotsCheck
import WebIndexer.Library.Along

/-! What `robotsCache` of `src/fetcher.ts` holds over a crawl. `checkRobotsTxt` waits for a
fetch, so its calls overlap: each is split into what it does at once and what it does when the
fetch ends. Rules are cached under their origin, with an eviction; a failure is cached under the
address itself.
-/

namespace WebIndexer.Fetcher

open WebIndexer.Library
open WebIndexer.Runtime

/-- A call of `checkRobotsTxt` that waits for its fetch. -/
structure PendingCheck where
  url : String
  parsed : Url

/-- The cache, the calls that wait, and the addresses that have been passed in. -/
structure RobotsChecks where
  cache : RobotsCache
  pending : List PendingCheck
  passed : List String

/-- What happens next: a call, or the end of the fetch of a waiting one, with the body or a
rejection.
-/
inductive CheckEvent where
  | call (url : String)
  | fetched (index : Nat) (html : Option String)

namespace RobotsChecks

/-- The module when it is loaded. -/
def start : RobotsChecks := ⟨.empty, [], []⟩

/-- `checkRobotsTxt` until it returns or waits, with the value that it returns. -/
def call (api : UrlApi) (checks : RobotsChecks) (url : String) : RobotsChecks × Option Bool :=
  let checks := { checks with passed := checks.passed ++ [url] }
  match api.parse url with
  | none => ({ checks with cache := checks.cache.set url none }, some true)
  | some parsed =>
      match checks.cache.get? parsed.origin with
      | some none => (checks, some true)
      | some (some cached) => (checks, some (!cached.any (startsWith parsed.pathname)))
      | none => ({ checks with pending := checks.pending ++ [⟨url, parsed⟩] }, none)

/-- `checkRobotsTxt` after its fetch, with the value that it returns. -/
def finish (cache : RobotsCache) (check : PendingCheck) : Option String → RobotsCache × Bool
  | none => (cache.set check.url none, true)
  | some html =>
      let blocked := parseRobotsTxt html
      (cacheRules cache check.parsed.origin blocked,
        !blocked.any (startsWith check.parsed.pathname))

/-- The module after an event. -/
def after (api : UrlApi) (checks : RobotsChecks) : CheckEvent → RobotsChecks
  | .call url => (checks.call api url).1
  | .fetched index html =>
      match checks.pending[index]? with
      | none => checks
      | some check => {
          checks with
          cache := (finish checks.cache check html).1
          pending := checks.pending.eraseIdx index
        }

variable {api : UrlApi} {checks : RobotsChecks}

/-- A text is the origin of an address that has been passed in. -/
def IsOrigin (api : UrlApi) (checks : RobotsChecks) (key : String) : Prop :=
  ∃ url ∈ checks.passed, ∃ parsed, api.parse url = some parsed ∧ parsed.origin = key

/-- The cache is bounded and keyed by origin. -/
structure Tidy (api : UrlApi) (checks : RobotsChecks) : Prop where
  bounded : checks.cache.size ≤ Config.robotsCacheMax
  origins : ∀ key ∈ checks.cache.keys, IsOrigin api checks key

/-- The cache is so after each event. -/
def StaysTidy (api : UrlApi) : RobotsChecks → List CheckEvent → Prop :=
  Along (after api) fun checks event => (checks.after api event).Tidy api

/-- A text is itself the origin of an address that has been passed in, and the cache holds it or
has room for it.
-/
def HasPlace (api : UrlApi) (checks : RobotsChecks) (url : String) : Prop :=
  IsOrigin api checks url
  ∧ (url ∈ checks.cache.keys ∨ checks.cache.size < Config.robotsCacheMax)

/-- The address of a call that fails has a place in the cache: one that cannot be parsed, or one
whose fetch is rejected.
-/
def FailureHasPlace (api : UrlApi) (checks : RobotsChecks) : CheckEvent → Prop
  | .call url => api.parse url = none → HasPlace api checks url
  | .fetched index html =>
      ∀ check, checks.pending[index]? = some check → html = none →
        HasPlace api checks check.url

/-- So do the addresses of all calls that fail. -/
def FailuresHavePlace (api : UrlApi) : RobotsChecks → List CheckEvent → Prop :=
  Along (after api) (FailureHasPlace api)

-----------------------------------------------------------------------------------------
-- The two halves make up a call
-----------------------------------------------------------------------------------------

/-- A call that nothing overlaps leaves the cache, and returns the value, of its two halves. -/
theorem checkRobotsTxt_halves {servers : Servers} {breaker : Circuit.CircuitBreaker} {now : Nat}
    {cache : RobotsCache} {url : String} {checked : Checked}
    (result : checkRobotsTxt api servers breaker now cache url = some checked)
    : let called := RobotsChecks.call api ⟨cache, [], []⟩ url
      called.2 = some checked.allowed ∧ called.1.cache = checked.cache
      ∨ ∃ check html,
          called.2 = none ∧ called.1.pending = [check] ∧ called.1.cache = cache
          ∧ finish cache check html = (checked.cache, checked.allowed) := by
  unfold checkRobotsTxt at result
  unfold call
  cases parses : api.parse url with
  | none =>
      rw [parses] at result
      obtain rfl := Option.some.inj result
      exact .inl ⟨rfl, rfl⟩
  | some parsed =>
      rw [parses] at result
      dsimp only at result ⊢
      cases cached : cache.get? parsed.origin with
      | some rules =>
          rw [cached] at result
          cases rules with
          | none =>
              obtain rfl := Option.some.inj result
              exact .inl ⟨rfl, rfl⟩
          | some rules =>
              obtain rfl := Option.some.inj result
              exact .inl ⟨rfl, rfl⟩
      | none =>
          rw [cached] at result
          obtain ⟨⟨breaker, fetched⟩, _, rfl⟩ := Option.map_eq_some_iff.mp result
          refine .inr ⟨⟨url, parsed⟩, fetched.map FetchResult.html, rfl, rfl, rfl, ?_⟩
          cases fetched with
          | none => rfl
          | some page => rfl

-----------------------------------------------------------------------------------------
-- The insertions
-----------------------------------------------------------------------------------------

/-- An assignment adds a key, unless the map has it. -/
theorem size_set_le_iff {cache : RobotsCache} {key : String} {value : Option (List String)}
    {max : Nat} (bounded : cache.size ≤ max)
    : (cache.set key value).size ≤ max ↔ key ∈ cache.keys ∨ cache.size < max := by
  rw [InsertionMap.size_set]
  by_cases present : key ∈ cache.keys
  · simp [present, bounded]
  · simp only [present, if_false, false_or]
    exact Iff.rfl

/-- Where the keys are origins, an assignment to an origin keeps them so. -/
theorem Tidy.origins_set {key : String} {value : Option (List String)} (tidy : checks.Tidy api)
    (origin : IsOrigin api checks key)
    : ∀ other ∈ (checks.cache.set key value).keys, IsOrigin api checks other := by
  intro other member
  rcases InsertionMap.mem_keys_set.mp member with rfl | old
  · exact origin
  · exact tidy.origins other old

/-- A failure leaves the cache tidy exactly when the address has a place in it. -/
theorem tidy_failure_iff {url : String} {pending : List PendingCheck} (tidy : checks.Tidy api)
    : Tidy api { checks with cache := checks.cache.set url none, pending := pending }
      ↔ HasPlace api checks url := by
  constructor
  · intro still
    exact ⟨still.origins url (InsertionMap.mem_keys_set.mpr (.inl rfl)),
      (size_set_le_iff tidy.bounded).mp still.bounded⟩
  · rintro ⟨origin, place⟩
    exact ⟨(size_set_le_iff tidy.bounded).mpr place, tidy.origins_set origin⟩

/-- Rules that are cached under an origin leave the cache tidy: the eviction restores its bound.
-/
theorem tidy_cacheRules {origin : String} {rules : List String} {pending : List PendingCheck}
    (tidy : checks.Tidy api) (passed : IsOrigin api checks origin)
    : Tidy api {
        checks with
        cache := cacheRules checks.cache origin rules
        pending := pending
      } := by
  have keys := @Tidy.origins_set api checks origin (robotsEntry rules) tidy passed
  have size : (checks.cache.set origin (robotsEntry rules)).size ≤ checks.cache.size + 1 := by
    rw [InsertionMap.size_set]
    split <;> omega
  have bounded := tidy.bounded
  unfold cacheRules
  dsimp only
  split
  · refine ⟨?_, fun key member => keys key (InsertionMap.mem_keys_of_mem_dropOldest member)⟩
    have half : 0 < (Config.robotsCacheMax + 1) / 2 := by decide
    rw [InsertionMap.size_dropOldest]
    omega
  · rename_i within
    exact ⟨Nat.not_lt.mp within, keys⟩

-----------------------------------------------------------------------------------------
-- Runs
-----------------------------------------------------------------------------------------

/-- The addresses of the calls that wait have been passed in and parsed. -/
def PendingPassed (api : UrlApi) (checks : RobotsChecks) : Prop :=
  ∀ check ∈ checks.pending, check.url ∈ checks.passed ∧ api.parse check.url = some check.parsed

/-- Passing in one more address takes no origin away. -/
theorem IsOrigin.passing {key url : String} {cache : RobotsCache} {pending : List PendingCheck}
    (origin : IsOrigin api checks key)
    : IsOrigin api ⟨cache, pending, checks.passed ++ [url]⟩ key := by
  obtain ⟨address, passed, parsed⟩ := origin
  exact ⟨address, List.mem_append_left _ passed, parsed⟩

/-- What a call does: it fails at once, or leaves the cache as it is. -/
theorem call_cases (api : UrlApi) (checks : RobotsChecks) (url : String)
    : (api.parse url = none
        ∧ (checks.call api url).1
          = ⟨checks.cache.set url none, checks.pending, checks.passed ++ [url]⟩)
      ∨ ∃ parsed,
          api.parse url = some parsed
          ∧ ((checks.call api url).1
              = ⟨checks.cache, checks.pending, checks.passed ++ [url]⟩
            ∨ (checks.call api url).1
              = ⟨checks.cache, checks.pending ++ [⟨url, parsed⟩], checks.passed ++ [url]⟩) := by
  unfold call
  cases parses : api.parse url with
  | none => exact .inl ⟨rfl, rfl⟩
  | some parsed =>
      refine .inr ⟨parsed, rfl, ?_⟩
      dsimp only
      split
      · exact .inl rfl
      · exact .inl rfl
      · exact .inr rfl

/-- An address that cannot be parsed has no origin to add. -/
theorem hasPlace_passing_iff {url : String} (unparsed : api.parse url = none)
    : HasPlace api { checks with passed := checks.passed ++ [url] } url
      ↔ HasPlace api checks url := by
  refine and_congr_left' ⟨?_, IsOrigin.passing⟩
  rintro ⟨address, passed, parsed, parses, same⟩
  rcases List.mem_append.mp passed with earlier | last
  · exact ⟨address, earlier, parsed, parses, same⟩
  · rw [List.mem_singleton.mp last, unparsed] at parses
    cases parses

/-- From a tidy cache, an event leaves it tidy exactly when the address of a failing call has a
place in it.
-/
theorem tidy_after_iff (tidy : checks.Tidy api) (known : checks.PendingPassed api)
    (event : CheckEvent)
    : (checks.after api event).Tidy api ↔ FailureHasPlace api checks event := by
  cases event with
  | call url =>
      have passing : Tidy api { checks with passed := checks.passed ++ [url] } :=
        ⟨tidy.bounded, fun key member => (tidy.origins key member).passing⟩
      simp only [after, FailureHasPlace]
      rcases call_cases api checks url with
        ⟨unparsed, called⟩ | ⟨parsed, parses, called | called⟩
      · rw [called]
        refine (tidy_failure_iff passing).trans ((hasPlace_passing_iff unparsed).trans ?_)
        exact ⟨fun place _ => place, fun place => place unparsed⟩
      · rw [called, parses]
        exact iff_of_true passing (fun unparsed => absurd unparsed (Option.some_ne_none _))
      · rw [called, parses]
        exact iff_of_true ⟨passing.bounded, passing.origins⟩
          (fun unparsed => absurd unparsed (Option.some_ne_none _))
  | fetched index html =>
      simp only [after, FailureHasPlace]
      cases waiting : checks.pending[index]? with
      | none => exact iff_of_true tidy (by simp)
      | some check =>
          obtain ⟨passed, parses⟩ := known check (List.mem_of_getElem? waiting)
          cases html with
          | none =>
              refine (tidy_failure_iff tidy).trans ⟨fun place other same _ => ?_, fun place => ?_⟩
              · obtain rfl := Option.some.inj same
                exact place
              · exact place check rfl rfl
          | some body =>
              refine iff_of_true (tidy_cacheRules tidy ⟨_, passed, _, parses, rfl⟩) ?_
              intro other _ rejected
              cases rejected

/-- Every event keeps track of the calls that wait. -/
theorem PendingPassed.after {event : CheckEvent} (known : checks.PendingPassed api)
    : (checks.after api event).PendingPassed api := by
  have passing (url : String) (check : PendingCheck) (member : check ∈ checks.pending)
      : check.url ∈ checks.passed ++ [url] ∧ api.parse check.url = some check.parsed :=
    (known check member).imp_left (List.mem_append_left _)
  cases event with
  | call url =>
      simp only [RobotsChecks.after]
      rcases call_cases api checks url with
        ⟨unparsed, called⟩ | ⟨parsed, parses, called | called⟩
      · rw [called]
        exact passing url
      · rw [called]
        exact passing url
      · rw [called]
        intro check member
        rcases List.mem_append.mp member with earlier | last
        · exact passing url check earlier
        · rw [List.mem_singleton.mp last]
          exact ⟨List.mem_append_right _ (List.mem_singleton_self url), parses⟩
  | fetched index html =>
      simp only [RobotsChecks.after]
      split
      · exact known
      · intro check member
        exact known check (List.mem_of_mem_eraseIdx member)

/-- After every event the cache is bounded and keyed by origin if and only if, whenever a call
fails, its address is itself the origin of an address that has been passed in, and is in the
cache already or finds it with room.
-/
theorem staysTidy_iff (api : UrlApi) (events : List CheckEvent)
    : StaysTidy api start events ↔ FailuresHavePlace api start events := by
  have first : start.Tidy api ∧ start.PendingPassed api := by
    refine ⟨⟨Nat.zero_le _, fun key member => ?_⟩, fun check member => ?_⟩
    · exact absurd member List.not_mem_nil
    · exact absurd member List.not_mem_nil
  have same (checks : RobotsChecks) (event : CheckEvent)
      (tidy : checks.Tidy api ∧ checks.PendingPassed api)
      : (checks.after api event).Tidy api ↔ FailureHasPlace api checks event :=
    tidy_after_iff tidy.1 tidy.2 event
  exact Along.iff_of_invariant same (fun _ _ tidy still => ⟨still, tidy.2.after⟩) first events

/-- A fetch that is rejected is cached under the address of a page, which is no origin. -/
theorem staysTidy_fails_for_rejection
    : ¬ ∀ (api : UrlApi) (events : List CheckEvent), StaysTidy api start events := by
  intro claim
  obtain ⟨-, tidy, -⟩ := claim plainUrlApi [.call newsUrl.href, .fetched 0 none]
  obtain ⟨url, passed, parsed, parses, same⟩ := tidy.origins newsUrl.href (by decide +kernel)
  have newsPassed : url = newsUrl.href := List.mem_singleton.mp passed
  have valid : plainUrlApi.parse newsUrl.href = some newsUrl := by decide +kernel
  rw [newsPassed, valid] at parses
  obtain rfl := Option.some.inj parses
  exact absurd same (by decide)

end RobotsChecks

end WebIndexer.Fetcher
