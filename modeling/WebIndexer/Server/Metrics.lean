import WebIndexer.Circuit.Registry
import WebIndexer.Library.Exposition
import WebIndexer.Runtime.Decimal

/-! The page of `src/metrics.ts`. The names of its metrics are fixed, but for those of the circuit
breakers, which contain whatever names the breakers have.
-/

namespace WebIndexer.Server

open WebIndexer.Circuit
open WebIndexer.Library
open WebIndexer.Runtime

/-- `CachedStats`, with numbers that are integers and not negative. -/
structure CachedStats where
  nodeCount : Nat
  frontierCount : Nat
  success : Nat
  fail : Nat
  domainsChecked : Nat
  domainsBlacklisted : Nat
  totalFetchTime : Nat
  concurrency : Nat
  deriving DecidableEq, Repr

/-- What a page reads of the machine and of the process; load averages are not negative. -/
structure Readings where
  now : Nat
  startTime : Nat
  loadavg : NNRat
  cpus : Nat
  rss : Nat
  heapUsed : Nat

/-- `uptimeSec`, which is negative when the clock was set back behind the start. -/
def uptimeSec (readings : Readings) : Int :=
  ⌊double ((readings.now - readings.startTime : Int) / 1000)⌋

/-- `rate`. -/
def rate (cached : CachedStats) (readings : Readings) : List Char :=
  if 0 < uptimeSec readings then
    toFixed 4 (double (cached.success / uptimeSec readings))
  else
    ['0']

/-- `errPct`. -/
def errPct (cached : CachedStats) : List Char :=
  let total := double (cached.success + cached.fail)
  if 0 < total then toFixed 2 (double (quotient cached.fail total * 100)) else ['0']

/-- `avgLatency`. -/
def avgLatency (cached : CachedStats) : List Char :=
  if 0 < cached.success then
    toFixed 0 (double (cached.totalFetchTime / cached.success))
  else
    ['0']

/-- `cpuUsage.toFixed(4)`; the division by no processors is no number, or infinite. -/
def cpuLoad (readings : Readings) : List Char :=
  match readings.cpus with
  | 0 => if readings.loadavg = 0 then "NaN".toList else "Infinity".toList
  | cpus + 1 => toFixed 4 (double (readings.loadavg / (cpus + 1)))

/-- A metric, by its texts. -/
def metric (name help kind : String) (value : List Char) : Metric :=
  ⟨name.toList, help.toList, kind.toList, value⟩

/-- The metrics that every page has. -/
def fixedMetrics (cached : CachedStats) (readings : Readings) : List Metric := [
  metric "webindexer_nodes_total" "Total indexed nodes" "gauge" (numberText cached.nodeCount),
  metric "webindexer_frontier_total" "URLs in frontier" "gauge"
    (numberText cached.frontierCount),
  metric "webindexer_success_total" "Total successful fetches" "counter"
    (numberText cached.success),
  metric "webindexer_fail_total" "Total failed fetches" "counter" (numberText cached.fail),
  metric "webindexer_error_rate_pct" "Error rate percentage" "gauge" (errPct cached),
  metric "webindexer_domains_total" "Total unique domains checked" "gauge"
    (numberText cached.domainsChecked),
  metric "webindexer_domains_blacklisted" "Auto-blacklisted domains" "gauge"
    (numberText cached.domainsBlacklisted),
  metric "webindexer_pages_per_second" "Crawl throughput" "gauge" (rate cached readings),
  metric "webindexer_avg_fetch_latency_ms" "Average fetch latency" "gauge" (avgLatency cached),
  metric "webindexer_concurrency" "Current concurrent fetches" "gauge"
    (numberText cached.concurrency),
  metric "webindexer_uptime_seconds" "Uptime in seconds" "gauge"
    (signedText (uptimeSec readings)),
  metric "webindexer_cpu_load" "Average CPU load" "gauge" (cpuLoad readings),
  metric "webindexer_memory_rss_bytes" "Resident set size in bytes" "gauge"
    (numberText readings.rss),
  metric "webindexer_memory_heap_used_bytes" "Heap used in bytes" "gauge"
    (numberText readings.heapUsed)
]

/-- `stateVal`. -/
def stateVal : State → Nat
  | .closed => 0
  | .opened => 1
  | .halfOpen => 2

/-- The name of a breaker's metric. -/
def circuitName (name : String) (ending : List Char) : List Char :=
  "webindexer_circuit_".toList ++ name.toList ++ ending

/-- The metrics of a breaker. -/
def circuitMetrics (status : CircuitBreaker.Status) : List Metric := [
  ⟨circuitName status.name "_state".toList,
    "Circuit breaker state (0=closed,1=open,2=half)".toList, "gauge".toList,
    numberText (stateVal status.state)⟩,
  ⟨circuitName status.name "_failures".toList, "Circuit breaker failure count".toList,
    "gauge".toList, numberText status.failureCount⟩
]

/-- The lines of the page, `lines`. -/
def pageLines (cached : CachedStats) (readings : Readings)
    (statuses : List CircuitBreaker.Status)
    : List (List Char) :=
  [[]].intercalate ((fixedMetrics cached readings).map Metric.lines)
  ++ statuses.flatMap fun status => [] :: (circuitMetrics status).flatMap Metric.lines

/-- `getMetrics`: the breakers after their states are read, and the page. -/
def getMetrics (cached : CachedStats) (readings : Readings) (breakers : Registry)
    : Registry × List Char :=
  let (breakers, statuses) := getAllBreakers breakers readings.now
  (breakers, ['\n'].intercalate (pageLines cached readings statuses))

/-- The lines that a scraper reads. -/
def scrape (cached : CachedStats) (readings : Readings) (breakers : Registry)
    : List (List Char) :=
  (getMetrics cached readings breakers).2.splitOn '\n'

-----------------------------------------------------------------------------------------
-- What is printed
-----------------------------------------------------------------------------------------

/-- The metrics of a page. -/
def pageMetrics (cached : CachedStats) (readings : Readings)
    (statuses : List CircuitBreaker.Status)
    : List Metric :=
  fixedMetrics cached readings ++ statuses.flatMap circuitMetrics

/-- Metrics with an empty line between each two are printed metrics. -/
theorem prints_intercalate (metrics : List Metric)
    : Prints metrics ([[]].intercalate (metrics.map Metric.lines)) := by
  induction metrics with
  | nil => exact .nil
  | cons first rest ih =>
      cases rest with
      | nil =>
          rw [List.map_singleton, List.intercalate_singleton, ← List.append_nil first.lines]
          exact .print first .nil
      | cons second rest =>
          rw [List.map_cons, List.intercalate_cons_of_ne_nil (by simp), List.append_assoc]
          exact .print first (.skip ih)

/-- Metrics without empty lines are printed metrics. -/
theorem prints_flatMap (metrics : List Metric) : Prints metrics (metrics.flatMap Metric.lines) := by
  induction metrics with
  | nil => exact .nil
  | cons first rest ih => exact .print first ih

/-- The page prints its metrics. -/
theorem prints_pageLines (cached : CachedStats) (readings : Readings)
    (statuses : List CircuitBreaker.Status)
    : Prints (pageMetrics cached readings statuses) (pageLines cached readings statuses) := by
  refine (prints_intercalate _).append ?_
  induction statuses with
  | nil => exact .nil
  | cons status rest ih => exact (Prints.skip (prints_flatMap (circuitMetrics status))).append ih

theorem isNumber_zero : IsNumber ['0'] :=
  isNumber_of_isDigits (List.mem_cons_self : IsSign []) (isDigits_repr 0)

theorem isNumber_rate (cached : CachedStats) (readings : Readings)
    : IsNumber (rate cached readings) := by
  unfold rate
  split
  · exact isNumber_toFixed _ _
  · exact isNumber_zero

theorem isNumber_errPct (cached : CachedStats) : IsNumber (errPct cached) := by
  unfold errPct
  dsimp only
  split
  · exact isNumber_toFixed _ _
  · exact isNumber_zero

theorem isNumber_avgLatency (cached : CachedStats) : IsNumber (avgLatency cached) := by
  unfold avgLatency
  split
  · exact isNumber_toFixed _ _
  · exact isNumber_zero

theorem isNumber_cpuLoad (readings : Readings) : IsNumber (cpuLoad readings) := by
  unfold cpuLoad
  split
  · split
    · exact .notANumber
    · exact IsNumber.infinity (List.mem_cons_self : IsSign [])
  · exact isNumber_toFixed _ _

/-- Every value on the page is a number, also where there is nothing to divide by. -/
theorem isNumber_pageMetrics {cached : CachedStats} {readings : Readings}
    {statuses : List CircuitBreaker.Status} {metric : Metric}
    (member : metric ∈ pageMetrics cached readings statuses)
    : IsNumber metric.value := by
  have plain (value : Nat) : IsNumber (numberText value) :=
    isNumber_numberText (List.mem_cons_self : IsSign []) value
  have fixed : ∀ value ∈ (fixedMetrics cached readings).map Metric.value, IsNumber value := by
    simp only [fixedMetrics, Server.metric, List.map_cons, List.map_nil, List.forall_mem_cons,
      List.not_mem_nil, false_implies, implies_true, and_true]
    exact ⟨plain _, plain _, plain _, plain _, isNumber_errPct _, plain _, plain _,
      isNumber_rate _ _, isNumber_avgLatency _, plain _, isNumber_signedText _,
      isNumber_cpuLoad _, plain _, plain _⟩
  rcases List.mem_append.mp member with among | circuit
  · exact fixed _ (List.mem_map_of_mem among)
  · obtain ⟨status, _, member⟩ := List.mem_flatMap.mp circuit
    rcases List.mem_pair.mp member with rfl | rfl
    · exact plain _
    · exact plain _

-----------------------------------------------------------------------------------------
-- Names
-----------------------------------------------------------------------------------------

/-- The names of the metrics that every page has. -/
def fixedNames : List (List Char) := [
  "webindexer_nodes_total", "webindexer_frontier_total", "webindexer_success_total",
  "webindexer_fail_total", "webindexer_error_rate_pct", "webindexer_domains_total",
  "webindexer_domains_blacklisted", "webindexer_pages_per_second",
  "webindexer_avg_fetch_latency_ms", "webindexer_concurrency", "webindexer_uptime_seconds",
  "webindexer_cpu_load", "webindexer_memory_rss_bytes", "webindexer_memory_heap_used_bytes"
].map String.toList

/-- The names of the metrics of a breaker. -/
def circuitNames (name : String) : List (List Char) :=
  [circuitName name "_state".toList, circuitName name "_failures".toList]

theorem map_name_pageMetrics (cached : CachedStats) (readings : Readings)
    (statuses : List CircuitBreaker.Status)
    : (pageMetrics cached readings statuses).map Metric.name
      = fixedNames ++ (statuses.map CircuitBreaker.Status.name).flatMap circuitNames := by
  rw [pageMetrics, List.map_append, List.map_flatMap, List.flatMap_map]
  rfl

/-- A breaker's metrics have names if and only if its own name has no other characters. -/
theorem isName_circuitName_iff (name : String) {ending : List Char}
    (chars : ending.all isNameChar = true)
    : isName (circuitName name ending) = true
      ↔ ∀ char ∈ name.toList, isNameChar char = true :=
  isName_append_iff (by decide) chars

/-- A breaker's metric tells the name of the breaker. -/
theorem circuitName_inj {name other : String} {ending : List Char}
    (same : circuitName name ending = circuitName other ending)
    : name = other := by
  unfold circuitName at same
  have front := (List.append_left_inj ending).mp same
  exact String.toList_inj.mp ((List.append_right_inj _).mp front)

/-- A breaker's metric tells which one it is. -/
theorem circuitName_ne (name other : String)
    : circuitName name "_state".toList ≠ circuitName other "_failures".toList := by
  intro same
  have last := congrArg List.getLast? same
  unfold circuitName at last
  have state : "_state".toList.getLast? = some 'e' := by decide +kernel
  have failures : "_failures".toList.getLast? = some 's' := by decide +kernel
  simp only [List.getLast?_append, state, failures, Option.some_or] at last
  exact absurd last (by decide)

/-- Breakers of different names have different metrics. -/
theorem disjoint_circuitNames_iff (name other : String)
    : (circuitNames name).Disjoint (circuitNames other) ↔ name ≠ other := by
  constructor
  · rintro disjoint rfl
    exact disjoint List.mem_cons_self List.mem_cons_self
  · intro different metric_name first second
    rcases List.mem_pair.mp first with state | failures
    · rcases List.mem_pair.mp second with other_state | other_failures
      · exact different (circuitName_inj (state.symm.trans other_state))
      · exact circuitName_ne name other (state.symm.trans other_failures)
    · rcases List.mem_pair.mp second with other_state | other_failures
      · exact circuitName_ne other name (other_state.symm.trans failures)
      · exact different (circuitName_inj (failures.symm.trans other_failures))

/-- Metrics of breakers differ from those that every page has. -/
theorem circuitName_not_mem_fixedNames (name : String) (ending : List Char)
    : circuitName name ending ∉ fixedNames := by
  have apart : ∀ fixed ∈ fixedNames, ¬ "webindexer_circuit_".toList <+: fixed := by
    decide +kernel
  intro member
  exact apart _ member ⟨name.toList ++ ending, (List.append_assoc ..).symm⟩

/-- The metrics of a page differ if and only if the names of the breakers do. -/
theorem nodup_names_iff (names : List String)
    : (fixedNames ++ names.flatMap circuitNames).Nodup ↔ names.Nodup := by
  rw [List.nodup_append, List.nodup_flatMap]
  constructor
  · rintro ⟨_, ⟨_, apart⟩, _⟩
    exact apart.imp fun disjoint => (disjoint_circuitNames_iff _ _).mp disjoint
  · intro distinct
    refine ⟨by decide +kernel, ⟨fun name _ => ?_, ?_⟩, ?_⟩
    · exact List.nodup_cons.mpr ⟨fun member =>
        circuitName_ne name name (List.mem_singleton.mp member), List.nodup_singleton _⟩
    · exact distinct.imp fun different => (disjoint_circuitNames_iff _ _).mpr different
    · rintro fixed among metric_name circuit rfl
      obtain ⟨name, _, member⟩ := List.mem_flatMap.mp circuit
      rcases List.mem_pair.mp member with state | failures
      · exact circuitName_not_mem_fixedNames name _ (state ▸ among)
      · exact circuitName_not_mem_fixedNames name _ (failures ▸ among)

-----------------------------------------------------------------------------------------
-- Lines
-----------------------------------------------------------------------------------------

theorem scrape_eq (cached : CachedStats) (readings : Readings) (breakers : Registry)
    : scrape cached readings breakers
      = (pageLines cached readings (getAllBreakers breakers readings.now).2).flatMap
          (List.splitOn '\n') :=
  splitOn_intercalate_eq (List.cons_ne_nil _ _)

/-- A line end in the name of a breaker makes its metrics look like one that is declared twice. -/
theorem not_wellFormed_of_breaker (cached : CachedStats) (readings : Readings)
    {statuses : List CircuitBreaker.Status} {status : CircuitBreaker.Status}
    (among : status ∈ statuses) (newline : '\n' ∈ status.name.toList)
    : ¬ WellFormed ((pageLines cached readings statuses).flatMap (List.splitOn '\n')) := by
  obtain ⟨front, rest, parts, free⟩ := List.eq_append_cons_of_mem newline
  have head_free : '\n' ∉ "webindexer_circuit_".toList ++ front := by
    rw [List.mem_append, not_or]
    exact ⟨by decide +kernel, free⟩
  have name_parts (ending : List Char)
      : circuitName status.name ending
        = ("webindexer_circuit_".toList ++ front) ++ '\n' :: (rest ++ ending) := by
    unfold circuitName
    rw [parts]
    simp only [List.append_assoc, List.cons_append]
  have own : ((circuitMetrics status).flatMap Metric.lines).Sublist
      (pageLines cached readings statuses) := by
    refine List.Sublist.trans ?_ (List.sublist_append_right _ _)
    refine List.Sublist.trans (List.sublist_cons_self [] _) (List.sublist_flatten_of_mem ?_)
    exact List.mem_map_of_mem among
  exact not_wellFormed_of_newline head_free (name_parts _) (name_parts _)
    (isSample_of_isName (by decide +kernel)) own

/-- The texts of the metrics that every page has are in order. -/
theorem fixedMetrics_sound (cached : CachedStats) (readings : Readings)
    : ∀ metric ∈ fixedMetrics cached readings,
        isName metric.name = true ∧ '\n' ∉ metric.name ∧ '\n' ∉ metric.help
        ∧ '\n' ∉ metric.kind := by
  simp only [fixedMetrics, Server.metric, List.forall_mem_cons, List.not_mem_nil, false_implies,
    implies_true, and_true]
  and_intros
  all_goals decide +kernel

/-- So are those of the metrics of a breaker, but for its name. -/
theorem circuitMetrics_sound (status : CircuitBreaker.Status)
    : ∀ metric ∈ circuitMetrics status,
        isSample (metric.name ++ ' ' :: metric.value) = true
        ∧ ('\n' ∉ status.name.toList → '\n' ∉ metric.name) ∧ '\n' ∉ metric.help
        ∧ '\n' ∉ metric.kind := by
  have front : isName "webindexer_circuit_".toList = true := by decide +kernel
  have name_free {ending : List Char} (free : '\n' ∉ status.name.toList)
      (ending_free : '\n' ∉ ending)
      : '\n' ∉ circuitName status.name ending := by
    unfold circuitName
    rw [List.mem_append, List.mem_append, not_or, not_or]
    exact ⟨⟨by decide +kernel, free⟩, ending_free⟩
  have sample (ending rest : List Char)
      : isSample (circuitName status.name ending ++ rest) = true := by
    unfold circuitName
    rw [List.append_assoc, List.append_assoc]
    exact isSample_of_isName front
  have gauge : '\n' ∉ "gauge".toList := by decide +kernel
  have state_help : '\n' ∉ "Circuit breaker state (0=closed,1=open,2=half)".toList := by
    decide +kernel
  have failures_help : '\n' ∉ "Circuit breaker failure count".toList := by decide +kernel
  refine List.forall_mem_cons.mpr ⟨⟨sample _ _, fun free => name_free free ?_, state_help, gauge⟩,
    List.forall_mem_singleton.mpr
      ⟨sample _ _, fun free => name_free free ?_, failures_help, gauge⟩⟩
  · decide +kernel
  · decide +kernel

/-- The metrics of a page have names if and only if those of the breakers have no other characters.
-/
theorem forall_isName_iff (cached : CachedStats) (readings : Readings)
    (statuses : List CircuitBreaker.Status)
    : (∀ metric ∈ pageMetrics cached readings statuses, isName metric.name = true)
      ↔ ∀ name ∈ statuses.map CircuitBreaker.Status.name,
          ∀ char ∈ name.toList, isNameChar char = true := by
  have state (name : String) := @isName_circuitName_iff name "_state".toList (by decide +kernel)
  have failures (name : String) :=
    @isName_circuitName_iff name "_failures".toList (by decide +kernel)
  rw [List.forall_mem_map]
  constructor
  · intro named status among
    have own := named _ (List.mem_append_right _
      (List.mem_flatMap.mpr ⟨status, among, List.mem_cons_self⟩))
    exact (state status.name).mp own
  · intro chars metric member
    rcases List.mem_append.mp member with fixed | circuit
    · exact (fixedMetrics_sound cached readings metric fixed).1
    · obtain ⟨status, among, own⟩ := List.mem_flatMap.mp circuit
      rcases List.mem_pair.mp own with rfl | rfl
      · exact (state status.name).mpr (chars status among)
      · exact (failures status.name).mpr (chars status among)

/-- Lines are well formed if and only if the names of the breakers are different, and have no other
characters than names have.
-/
theorem wellFormed_pageLines_iff (cached : CachedStats) (readings : Readings)
    (statuses : List CircuitBreaker.Status)
    : WellFormed ((pageLines cached readings statuses).flatMap (List.splitOn '\n'))
      ↔ (∀ name ∈ statuses.map CircuitBreaker.Status.name,
          ∀ char ∈ name.toList, isNameChar char = true)
        ∧ (statuses.map CircuitBreaker.Status.name).Nodup := by
  by_cases free : ∀ status ∈ statuses, '\n' ∉ status.name.toList
  · have lines_free : ∀ line ∈ pageLines cached readings statuses, '\n' ∉ line := by
      refine newline_not_mem_of_prints (prints_pageLines cached readings statuses) ?_
      intro metric member
      have value := (isNumber_pageMetrics member).not_mem (by decide : Char.isDigit '\n' = false)
        (by decide)
      rcases List.mem_append.mp member with fixed | circuit
      · obtain ⟨_, name, help, kind⟩ := fixedMetrics_sound cached readings metric fixed
        exact ⟨name, help, kind, value⟩
      · obtain ⟨status, among, own⟩ := List.mem_flatMap.mp circuit
        obtain ⟨_, name, help, kind⟩ := circuitMetrics_sound status metric own
        exact ⟨name (free status among), help, kind, value⟩
    have samples : ∀ metric ∈ pageMetrics cached readings statuses,
        isSample (metric.name ++ ' ' :: metric.value) = true := by
      intro metric member
      rcases List.mem_append.mp member with fixed | circuit
      · exact isSample_of_isName (fixedMetrics_sound cached readings metric fixed).1
      · obtain ⟨status, _, own⟩ := List.mem_flatMap.mp circuit
        exact (circuitMetrics_sound status metric own).1
    rw [flatMap_splitOn_eq lines_free,
      wellFormed_iff_of_prints (prints_pageLines cached readings statuses)
        (fun _ => isNumber_pageMetrics) samples,
      forall_isName_iff, map_name_pageMetrics, nodup_names_iff]
  · push Not at free
    obtain ⟨status, among, newline⟩ := free
    refine iff_of_false (not_wellFormed_of_breaker cached readings among newline) ?_
    rintro ⟨chars, _⟩
    exact absurd (chars _ (List.mem_map_of_mem among) '\n' newline) (by decide)

/-- The page is well formed if and only if the names of the circuit breakers have letters, digits,
underscores and colons only, and no two breakers have the same name.
-/
theorem wellFormed_scrape_iff (cached : CachedStats) (readings : Readings) (breakers : Registry)
    : WellFormed (scrape cached readings breakers)
      ↔ (∀ name ∈ breakerNames breakers, ∀ char ∈ name.toList, isNameChar char = true)
        ∧ (breakerNames breakers).Nodup := by
  rw [scrape_eq, wellFormed_pageLines_iff, map_name_getAllBreakers]

/-- `httpBreaker`, as the fetcher registers it. -/
def httpBreakers : Registry :=
  (getBreaker "http-fetch" (some { failureThreshold := some 50, resetTimeout := some 8000 }) 0
    InsertionMap.empty).1

/-- The breaker of the fetcher has a hyphen in its name, which no metric can have. -/
theorem not_wellFormed_scrape
    : ¬ ∀ cached readings breakers, WellFormed (scrape cached readings breakers) := by
  intro claim
  have formed := claim ⟨0, 0, 0, 0, 0, 0, 0, 0⟩ ⟨0, 0, 0, 1, 0, 0⟩ httpBreakers
  rw [scrape_eq, wellFormed_pageLines_iff, map_name_getAllBreakers] at formed
  have names : breakerNames httpBreakers = ["http-fetch"] :=
    breakerNames_getBreaker 0 rfl (by decide) List.not_mem_nil
  rw [names] at formed
  exact absurd (formed.1 "http-fetch" List.mem_cons_self '-' (by decide)) (by decide)

end WebIndexer.Server
