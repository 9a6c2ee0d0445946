import Mathlib
import WebIndexer.Library.InsertionMap
import WebIndexer.Library.Runs

/-! `resolveDns` and `evictDnsCache` of `src/fetcher.ts`. Calls overlap: each asks `dns.resolve4`
with a timer, and `dns.lookup` when that fails. Times are in milliseconds. The event loop may be
late: a timer goes off at most `lag` after it is due.
-/

namespace WebIndexer.Fetcher

open WebIndexer.Library

/-- `dnsCache` -/
abbrev DnsCache := InsertionMap String String

/-- `DNS_TIMEOUT`, which `src/config.ts` defines. -/
def dnsTimeout : Nat := 1500

/-- What the promise of a call settles to. -/
inductive Resolution where
  | resolved (addr : String)
  | timedOut
  | failed
  deriving DecidableEq

/-- The callback that a call waits for. -/
inductive DnsQuery where
  | resolve4
  | lookup
  deriving DecidableEq

/-- A call of `resolveDns`: when it began, when its timer is due, the callback that it waits for,
and its promise.
-/
structure DnsCall where
  host : String
  began : Nat
  timer : Option Nat
  waits : Option DnsQuery
  outcome : Option Resolution
  deriving DecidableEq

namespace DnsCall

/-- A promise settles once. -/
def settle (call : DnsCall) (outcome : Resolution) : DnsCall :=
  { call with outcome := call.outcome.or (some outcome) }

/-- The timer goes off. -/
def timeOut (call : DnsCall) : DnsCall := { call with timer := none }.settle .timedOut

/-- `resolve4` has failed, or has found nothing. -/
def lookUp (call : DnsCall) : DnsCall := { call with timer := none, waits := some .lookup }

/-- The last callback of the call has run. -/
def finish (call : DnsCall) (outcome : Resolution) : DnsCall :=
  { call with timer := none, waits := none }.settle outcome

end DnsCall

/-- The cache, the calls in the order in which they began, and the time. -/
structure Dns where
  cache : DnsCache
  calls : List DnsCall
  now : Nat

/-- What happens next: a call, the end of a callback of `resolve4` or `lookup`, a timer that goes
off, `evictDnsCache`, or a millisecond that passes. An error is no answer.
-/
inductive DnsLabel where
  | call (host : String)
  | resolve4 (index : Nat) (addrs : Option (List String))
  | lookup (index : Nat) (addr : Option String)
  | timer (index : Nat)
  | evict (maxSize : Nat)
  | elapse
  deriving DecidableEq

/-- `evictDnsCache(maxSize)`: the cache, and the number of its entries that are gone. -/
def evictDnsCache (cache : DnsCache) (maxSize : Nat) : DnsCache × Nat :=
  if cache.size ≤ maxSize then (cache, 0) else (cache.dropOldest (cache.size / 2), cache.size / 2)

namespace Dns

/-- The module when it is loaded. -/
def start : Dns := ⟨.empty, [], 0⟩

/-- The first part of `resolveDns(host)`. -/
def resolveDns (dns : Dns) (host : String) : DnsCall :=
  match dns.cache.get? host with
  | some addr => ⟨host, dns.now, none, none, some (.resolved addr)⟩
  | none => ⟨host, dns.now, some (dns.now + dnsTimeout), some .resolve4, none⟩

/-- A call comes to be another. -/
def put (dns : Dns) (index : Nat) (call : DnsCall) : Dns :=
  { dns with calls := dns.calls.set index call }

/-- A call has its answer, which the cache keeps. -/
def answer (dns : Dns) (index : Nat) (call : DnsCall) (addr : String) : Dns :=
  { dns.put index (call.finish (.resolved addr)) with cache := dns.cache.set call.host addr }

/-- One step. -/
def step (lag : Nat) (dns : Dns) : DnsLabel → Option Dns
  | .call host => some { dns with calls := dns.calls ++ [dns.resolveDns host] }
  | .resolve4 index addrs =>
      dns.calls[index]?.bind fun call =>
        if call.waits = some .resolve4 then
          match addrs with
          | some (addr :: _) => some (dns.answer index call addr)
          | _ => some (dns.put index call.lookUp)
        else
          none
  | .lookup index addr =>
      dns.calls[index]?.bind fun call =>
        if call.waits = some .lookup then
          match addr with
          | some addr => some (dns.answer index call addr)
          | none => some (dns.put index (call.finish .failed))
        else
          none
  | .timer index =>
      dns.calls[index]?.bind fun call =>
        if ∃ due ∈ call.timer, due ≤ dns.now then
          some (dns.put index call.timeOut)
        else
          none
  | .evict maxSize => some { dns with cache := (evictDnsCache dns.cache maxSize).1 }
  | .elapse =>
      if ∀ call ∈ dns.calls, ∀ due ∈ call.timer, dns.now < due + lag then
        some { dns with now := dns.now + 1 }
      else
        none

-----------------------------------------------------------------------------------------
-- Steps
-----------------------------------------------------------------------------------------

/-- What one step does. -/
inductive StepCase (lag : Nat) (dns : Dns) : DnsLabel → Dns → Prop
  | called (host : String)
    : StepCase lag dns (.call host) { dns with calls := dns.calls ++ [dns.resolveDns host] }
  | resolved {index : Nat} {call : DnsCall} {addr : String} {more : List String}
    (member : dns.calls[index]? = some call) (waits : call.waits = some .resolve4)
    : StepCase lag dns (.resolve4 index (some (addr :: more))) (dns.answer index call addr)
  | unresolved {index : Nat} {call : DnsCall} {addrs : Option (List String)}
    (member : dns.calls[index]? = some call) (waits : call.waits = some .resolve4)
    : StepCase lag dns (.resolve4 index addrs) (dns.put index call.lookUp)
  | lookedUp {index : Nat} {call : DnsCall} {addr : String}
    (member : dns.calls[index]? = some call) (waits : call.waits = some .lookup)
    : StepCase lag dns (.lookup index (some addr)) (dns.answer index call addr)
  | failed {index : Nat} {call : DnsCall} (member : dns.calls[index]? = some call)
    (waits : call.waits = some .lookup)
    : StepCase lag dns (.lookup index none) (dns.put index (call.finish .failed))
  | timedOut {index : Nat} {call : DnsCall} {due : Nat} (member : dns.calls[index]? = some call)
    (timer : call.timer = some due) (late : due ≤ dns.now)
    : StepCase lag dns (.timer index) (dns.put index call.timeOut)
  | evicted (maxSize : Nat)
    : StepCase lag dns (.evict maxSize)
        { dns with cache := (evictDnsCache dns.cache maxSize).1 }
  | elapsed (punctual : ∀ call ∈ dns.calls, ∀ due ∈ call.timer, dns.now < due + lag)
    : StepCase lag dns .elapse { dns with now := dns.now + 1 }

variable {lag : Nat} {dns next : Dns} {label : DnsLabel}

/-- Inversion of a step. -/
theorem step_cases (taken : dns.step lag label = some next) : StepCase lag dns label next := by
  cases label with
  | call host =>
      obtain rfl := Option.some.inj taken
      exact .called host
  | resolve4 index addrs =>
      obtain ⟨call, member, taken⟩ := Option.bind_eq_some_iff.mp taken
      split at taken
      · rename_i waits
        split at taken
        · obtain rfl := Option.some.inj taken
          exact .resolved member waits
        · obtain rfl := Option.some.inj taken
          exact .unresolved member waits
      · cases taken
  | lookup index addr =>
      obtain ⟨call, member, taken⟩ := Option.bind_eq_some_iff.mp taken
      split at taken
      · rename_i waits
        split at taken
        · obtain rfl := Option.some.inj taken
          exact .lookedUp member waits
        · obtain rfl := Option.some.inj taken
          exact .failed member waits
      · cases taken
  | timer index =>
      obtain ⟨call, member, taken⟩ := Option.bind_eq_some_iff.mp taken
      split at taken
      · rename_i timer
        obtain ⟨due, timer, late⟩ := timer
        obtain rfl := Option.some.inj taken
        exact .timedOut member timer late
      · cases taken
  | evict maxSize =>
      obtain rfl := Option.some.inj taken
      exact .evicted maxSize
  | elapse =>
      simp only [step] at taken
      split at taken
      · rename_i punctual
        obtain rfl := Option.some.inj taken
        exact .elapsed punctual
      · cases taken

/-- What holds of all calls, and of one that is put in the place of another, holds of all after
that.
-/
theorem each_put {holds : DnsCall → Prop} {index : Nat} {call : DnsCall}
    (each : ∀ other ∈ dns.calls, holds other) (own : holds call)
    : ∀ other ∈ (dns.put index call).calls, holds other := by
  intro other member
  rcases List.mem_or_eq_of_mem_set member with before | rfl
  · exact each other before
  · exact own

/-- The hosts that have been asked for. -/
def hosts (dns : Dns) : List String := dns.calls.map DnsCall.host

/-- A call that goes on keeps its host. -/
theorem hosts_put {index : Nat} {call : DnsCall} (after : DnsCall)
    (member : dns.calls[index]? = some call) (same : after.host = call.host)
    : (dns.put index after).hosts = dns.hosts := by
  simp only [hosts, put, List.map_set, same]
  refine List.ext_getElem? fun other => ?_
  by_cases own : index = other
  · subst own
    obtain ⟨within, rfl⟩ := List.getElem?_eq_some_iff.mp member
    simp [within]
  · simp [own]

-----------------------------------------------------------------------------------------
-- What the cache holds
-----------------------------------------------------------------------------------------

/-- The answers that come are right about the hosts they are for. -/
def AnswersWith (right : String → String → Prop) (dns : Dns) : DnsLabel → Prop
  | .resolve4 index (some (addr :: _)) | .lookup index (some addr) =>
      ∀ call ∈ dns.calls[index]?, right call.host addr
  | _ => True

instance (right : String → String → Prop) [DecidableRel right] (dns : Dns) (label : DnsLabel)
    : Decidable (dns.AnswersWith right label) :=
  match label with
  | .resolve4 index (some (addr :: _)) | .lookup index (some addr) =>
      inferInstanceAs (Decidable (∀ call ∈ dns.calls[index]?, right call.host addr))
  | .resolve4 _ (some []) | .resolve4 _ none | .lookup _ none | .call _ | .timer _ | .evict _
  | .elapse => .isTrue trivial

/-- The cache and the promises hold right answers only, and the cache only hosts that have been
asked for.
-/
structure Answered (right : String → String → Prop) (dns : Dns) : Prop where
  cache : ∀ entry ∈ dns.cache.entries, right entry.1 entry.2
  outcome : ∀ call ∈ dns.calls, ∀ addr, call.outcome = some (.resolved addr) →
    right call.host addr
  asked : ∀ key ∈ dns.cache.keys, key ∈ dns.hosts

variable {right : String → String → Prop}

/-- A promise that settles again stays as it is. -/
theorem resolved_settle {call : DnsCall} {outcome : Resolution} {addr : String}
    (resolved : (call.settle outcome).outcome = some (.resolved addr))
    : call.outcome = some (.resolved addr) ∨ outcome = .resolved addr := by
  cases before : call.outcome with
  | none =>
      rw [DnsCall.settle, before] at resolved
      exact .inr (Option.some.inj resolved)
  | some settled =>
      rw [DnsCall.settle, before] at resolved
      exact .inl resolved

/-- A call that goes on without an answer. -/
theorem Answered.put {index : Nat} {call after : DnsCall} (answered : dns.Answered right)
    (member : dns.calls[index]? = some call) (same : after.host = call.host)
    (still : ∀ addr, after.outcome = some (.resolved addr) →
      call.outcome = some (.resolved addr))
    : (dns.put index after).Answered right := by
  refine ⟨answered.cache, each_put answered.outcome fun addr resolved => ?_,
    fun key present => ?_⟩
  · rw [same]
    exact answered.outcome call (List.mem_of_getElem? member) addr (still addr resolved)
  · rw [hosts_put after member same]
    exact answered.asked key present

/-- A call that has a right answer. -/
theorem Answered.answer {index : Nat} {call : DnsCall} {addr : String}
    (answered : dns.Answered right) (member : dns.calls[index]? = some call)
    (so : right call.host addr)
    : (dns.answer index call addr).Answered right := by
  have hosts : (dns.answer index call addr).hosts = dns.hosts :=
    hosts_put (call.finish (.resolved addr)) member rfl
  refine ⟨fun entry present => ?_, each_put answered.outcome fun given resolved => ?_,
    fun key present => ?_⟩
  · rcases InsertionMap.mem_of_mem_set present with rfl | before
    · exact so
    · exact answered.cache entry before
  · rcases resolved_settle resolved with before | same
    · exact answered.outcome call (List.mem_of_getElem? member) given before
    · obtain rfl := Resolution.resolved.inj same
      exact so
  · rw [hosts]
    rcases InsertionMap.mem_keys_set.mp present with rfl | before
    · exact List.mem_map_of_mem (List.mem_of_getElem? member)
    · exact answered.asked key before

/-- A step with right answers leaves right ones only. -/
theorem Answered.step (answered : dns.Answered right) (met : dns.AnswersWith right label)
    (taken : dns.step lag label = some next)
    : next.Answered right := by
  cases step_cases taken with
  | called host =>
      refine ⟨answered.cache, fun call present addr resolved => ?_, fun key present => ?_⟩
      · rcases List.mem_append.mp present with before | own
        · exact answered.outcome call before addr resolved
        · obtain rfl := List.mem_singleton.mp own
          unfold resolveDns at resolved ⊢
          split at resolved
          · rename_i cached found
            obtain rfl := Resolution.resolved.inj (Option.some.inj resolved)
            exact answered.cache _ (InsertionMap.mem_of_get? found)
          · cases resolved
      · change key ∈ (dns.calls ++ [dns.resolveDns host]).map DnsCall.host
        rw [List.map_append]
        exact List.mem_append_left _ (answered.asked key present)
  | resolved member | lookedUp member => exact answered.answer member (met _ member)
  | unresolved member => exact answered.put member rfl fun _ => id
  | failed member | timedOut member =>
      exact answered.put member rfl fun _ resolved =>
        (resolved_settle resolved).resolve_right (by rintro ⟨⟩)
  | evicted maxSize =>
      refine ⟨fun entry present => ?_, answered.outcome, fun key present => ?_⟩
      · unfold evictDnsCache at present
        split at present
        · exact answered.cache entry present
        · exact answered.cache entry (InsertionMap.mem_of_mem_dropOldest present)
      · unfold evictDnsCache at present
        split at present
        · exact answered.asked key present
        · exact answered.asked key (InsertionMap.mem_keys_of_mem_dropOldest present)
  | elapsed => exact ⟨answered.cache, answered.outcome, answered.asked⟩

/-- The cache is no larger than the number of hosts that have been asked for. -/
theorem Answered.size_le (answered : dns.Answered right)
    : dns.cache.size ≤ dns.hosts.dedup.length := by
  have within : dns.cache.keys ⊆ dns.hosts.dedup := fun key present =>
    List.mem_dedup.mpr (answered.asked key present)
  calc dns.cache.size
      = dns.cache.keys.length := (List.length_map _).symm
    _ ≤ dns.hosts.dedup.length := (dns.cache.nodup.subperm within).length_le

/-- Nothing has been asked for when the module is loaded. -/
theorem answered_start : start.Answered right :=
  ⟨by rintro _ ⟨⟩, by rintro _ ⟨⟩, by rintro _ ⟨⟩⟩

/-- However calls, late callbacks, timers and evictions are interleaved: if every answer that comes
is right about its host, so are the cache and the addresses that calls are resolved with. An
eviction removes nothing as long as no more hosts than its limit have been asked for.
-/
theorem cache_answered (run : Run (step lag) (AnswersWith right) start dns)
    : (∀ entry ∈ dns.cache.entries, right entry.1 entry.2)
      ∧ (∀ call ∈ dns.calls, ∀ addr, call.outcome = some (.resolved addr) →
          right call.host addr)
      ∧ ∀ maxSize, dns.hosts.dedup.length ≤ maxSize →
          evictDnsCache dns.cache maxSize = (dns.cache, 0) := by
  have answered : dns.Answered right :=
    run.invariant answered_start fun answered met taken => answered.step met taken
  exact ⟨answered.cache, answered.outcome, fun maxSize few =>
    if_pos (answered.size_le.trans few)⟩

theorem cache_answered_of_hit
    : ∃ dns, Run (step 0) (AnswersWith fun _ addr => addr = "10.0.0.1") start dns
        ∧ dns.calls.length = 2
        ∧ ∀ call ∈ dns.calls, ∀ addr, call.outcome = some (.resolved addr) →
            addr = "10.0.0.1" := by
  have passes : (execute (step 0) (AnswersWith fun _ addr => addr = "10.0.0.1") start
      [.call "a.example", .resolve4 0 (some ["10.0.0.1"]), .call "a.example"]).any
      fun dns => dns.calls.length = 2 := by
    decide +kernel
  obtain ⟨dns, run, asked⟩ := exists_run_of_any passes
  exact ⟨dns, run, of_decide_eq_true asked, (cache_answered run).2.1⟩

-----------------------------------------------------------------------------------------
-- How long a call takes
-----------------------------------------------------------------------------------------

/-- A call is within the time of its timer, or waits for `lookup`, or has settled. -/
structure Timely (lag now : Nat) (call : DnsCall) : Prop where
  due : ∀ due, call.timer = some due → due = call.began + dnsTimeout ∧ now ≤ due + lag
  waits : call.outcome = none →
    call.waits = some .lookup ∨ call.waits = some .resolve4 ∧ call.timer.isSome

/-- A call that has settled is timely when its timer is cleared. -/
theorem timely_finish {call : DnsCall} {outcome : Resolution} {now : Nat}
    : Timely lag now (call.finish outcome) := by
  refine ⟨nofun, fun unsettled => ?_⟩
  cases before : call.outcome <;> simp [DnsCall.finish, DnsCall.settle, before] at unsettled

/-- A step keeps the calls timely. -/
theorem timely_step (timely : ∀ call ∈ dns.calls, Timely lag dns.now call)
    (taken : dns.step lag label = some next)
    : ∀ call ∈ next.calls, Timely lag next.now call := by
  cases step_cases taken with
  | called host =>
      intro call present
      rcases List.mem_append.mp present with before | own
      · exact timely call before
      · obtain rfl := List.mem_singleton.mp own
        unfold resolveDns
        split
        · exact ⟨nofun, nofun⟩
        · refine ⟨fun due same => ?_, fun _ => .inr ⟨rfl, rfl⟩⟩
          obtain rfl := Option.some.inj same
          exact ⟨rfl, by change dns.now ≤ dns.now + dnsTimeout + lag; omega⟩
  | resolved | lookedUp | failed => exact each_put timely timely_finish
  | unresolved => exact each_put timely ⟨nofun, fun _ => .inl rfl⟩
  | timedOut =>
      refine each_put timely ⟨nofun, fun unsettled => ?_⟩
      simp [DnsCall.timeOut, DnsCall.settle] at unsettled
  | evicted => exact timely
  | elapsed punctual =>
      intro call present
      have before := timely call present
      refine ⟨fun due same => ?_, before.waits⟩
      have late := punctual call present due same
      exact ⟨(before.due due same).1, by change dns.now + 1 ≤ due + lag; omega⟩

/-- A call that has not settled when its time is over waits for `lookup`. -/
theorem waits_lookup (reached : Reaches (step lag) start dns) {call : DnsCall}
    (present : call ∈ dns.calls) (unsettled : call.outcome = none)
    (late : call.began + dnsTimeout + lag < dns.now)
    : call.waits = some .lookup := by
  have timely : ∀ call ∈ dns.calls, Timely lag dns.now call := by
    clear present late
    induction reached with
    | refl => exact fun _ member => absurd member List.not_mem_nil
    | next _ _ taken before => exact timely_step before taken
  rcases (timely call present).waits unsettled with lookup | ⟨-, timed⟩
  · exact lookup
  · obtain ⟨due, timer⟩ := Option.isSome_iff_exists.mp timed
    have within := (timely call present).due due timer
    omega

/-- A call that waits for `lookup`, and that nothing else happens to. -/
def lookingUp (time : Nat) : Dns := ⟨.empty, [⟨"a.example", 0, none, some .lookup, none⟩], time⟩

/-- Any time can pass while a call waits for `lookup`, by induction on the time. -/
theorem reaches_lookingUp (lag time : Nat) : Reaches (step lag) start (lookingUp time) := by
  induction time with
  | zero =>
      have asked : Reaches (step lag) start _ := .next (.refl start) trivial
        (show start.step lag (.call "a.example") = some _ from rfl)
      exact .next asked trivial
        (show step lag _ (.resolve4 0 none) = some (lookingUp 0) from rfl)
  | succ time waited =>
      refine .next waited trivial (show step lag _ .elapse = _ from ?_)
      simp [step, lookingUp]

/-- `DNS_TIMEOUT` bounds a call only as long as it waits for `resolve4`. One that has not settled
after that waits for `lookup`, and there it can stay for any time.
-/
theorem timeout_covers_resolve4 (lag : Nat)
    : (∀ dns, Reaches (step lag) start dns → ∀ call ∈ dns.calls, call.outcome = none →
        call.began + dnsTimeout + lag < dns.now → call.waits = some .lookup)
      ∧ ∀ time, ∃ dns, Reaches (step lag) start dns
        ∧ ∃ call ∈ dns.calls, call.outcome = none ∧ call.began + time ≤ dns.now := by
  refine ⟨fun dns reached call present unsettled late =>
    waits_lookup reached present unsettled late, fun time => ?_⟩
  exact ⟨lookingUp time, reaches_lookingUp lag time, _, List.mem_singleton_self _, rfl,
    (Nat.zero_add time).le⟩

end Dns

end WebIndexer.Fetcher
