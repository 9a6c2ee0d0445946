import WebIndexer.Library.FixedWindow
import WebIndexer.Library.InsertionMap

/-! `RedisRateLimiter` of `src/redis.ts`, and the sorted sets of a Redis server that it works
on. A call sends one pipeline of four commands, which the server runs as one.
-/

namespace WebIndexer.Redis

open WebIndexer.Library

-----------------------------------------------------------------------------------------
-- Sorted sets
-----------------------------------------------------------------------------------------

/-- A sorted set: its members with their scores, and the time from which it is gone. -/
structure SortedSet where
  members : List (String × Nat)
  deadline : Option Nat
  deriving DecidableEq, Repr

/-- The sorted sets of a server, by their keys. -/
abbrev SortedSets := String → Option SortedSet

namespace SortedSets

/-- The set of a key. A key whose time to live is over is gone. -/
def live (sets : SortedSets) (key : String) (now : Nat) : Option SortedSet :=
  (sets key).filter fun set => set.deadline.all fun deadline => now < deadline

/-- Replace the set of a key. -/
def store (sets : SortedSets) (key : String) (set : Option SortedSet) : SortedSets :=
  fun other => if other = key then set else sets other

/-- `ZREMRANGEBYSCORE key min max`. A set without members is deleted. -/
def zremrangebyscore (set : Option SortedSet) (min max : Int) : Option SortedSet :=
  (set.map fun set =>
    { set with members := set.members.filter fun entry => ¬ (min ≤ entry.2 ∧ entry.2 ≤ max) }).filter
    fun set => set.members ≠ []

/-- `ZADD key score member`. A new set has no time to live. -/
def zadd (set : Option SortedSet) (score : Nat) (member : String) : SortedSet :=
  match set with
  | none => ⟨[(member, score)], none⟩
  | some set =>
      if member ∈ set.members.map Prod.fst then
        { set with
          members := set.members.map fun entry =>
            if entry.1 = member then (member, score) else entry }
      else
        { set with members := set.members ++ [(member, score)] }

/-- `ZCARD key`. -/
def zcard (set : SortedSet) : Nat := set.members.length

/-- `PEXPIRE key ms`. -/
def pexpire (set : SortedSet) (now ms : Nat) : SortedSet :=
  { set with deadline := some (now + ms) }

end SortedSets

-----------------------------------------------------------------------------------------
-- Pipelines
-----------------------------------------------------------------------------------------

/-- The pair that `pipeline.exec()` resolves with for one command: an error without a result,
or a result without an error.
-/
inductive CommandResult where
  | error (message : String)
  | value (number : Nat)
  deriving DecidableEq, Repr

/-- How the promise of `pipeline.exec()` ends: rejected, or resolved with the results of the
commands, or with `null`.
-/
inductive Exec where
  | rejected
  | resolved (results : Option (List CommandResult))
  deriving DecidableEq, Repr

/-- All four commands of a pipeline have failed. -/
def Exec.allFail : Exec → Bool
  | .rejected => true
  | .resolved none => false
  | .resolved (some results) =>
      results.length = 4 && results.all fun result =>
        match result with
        | .error _ => true
        | .value _ => false

-----------------------------------------------------------------------------------------
-- The limiter
-----------------------------------------------------------------------------------------

/-- The settings of a limiter. -/
structure Limits where
  name : String
  maxRequests : Nat
  windowMs : Nat
  deriving DecidableEq, Repr

/-- `RedisRateLimiter`. An entry of `localFallback` is a window, by its `windowStart`, and the
`count` of calls in it.
-/
structure RedisRateLimiter extends Limits where
  localFallback : InsertionMap String Window

namespace RedisRateLimiter

/-- The constructor. -/
def create (limits : Limits) : RedisRateLimiter where
  toLimits := limits
  localFallback := .empty

/-- The key of the sorted set. -/
def redisKey (limits : Limits) (key : String) : String :=
  "ratelimit:" ++ limits.name ++ ":" ++ key

/-- The member that a call adds: the time, and a random number as text. -/
def member (now : Nat) (random : String) : String :=
  toString now ++ "-" ++ random

/-- The pipeline of a call, on a server that runs all of it, with `PEXPIRE` or without: the
sets afterwards, and what `exec` resolves with.
-/
def pipeline (limits : Limits) (withPexpire : Bool) (sets : SortedSets) (key : String)
    (now : Nat) (random : String)
    : SortedSets × Exec :=
  let redisKey := redisKey limits key
  let windowStart : Int := now - limits.windowMs
  let found := sets.live redisKey now
  let trimmed := SortedSets.zremrangebyscore found 0 windowStart
  let removed := (found.map SortedSets.zcard).getD 0 - (trimmed.map SortedSets.zcard).getD 0
  let added := SortedSets.zadd trimmed now (member now random)
  let count := SortedSets.zcard added
  let kept := if withPexpire then SortedSets.pexpire added now limits.windowMs else added
  (sets.store redisKey (some kept),
    .resolved (some
      ([.value removed, .value 1, .value count] ++ if withPexpire then [.value 1] else [])))

/-- `_localFallback`. -/
def fallback (limiter : RedisRateLimiter) (key : String) (now : Nat)
    : Bool × RedisRateLimiter :=
  let entry := (limiter.localFallback.get? key).getD ⟨now, 0⟩
  let entry := if limiter.windowMs < now - entry.start then ⟨now, 0⟩ else entry
  let counted := entry.hit
  (counted.count ≤ limiter.maxRequests,
    { limiter with localFallback := limiter.localFallback.set key counted })

/-- `isAllowed` from the end of `pipeline.exec()` on. Reading the third result of an answer
that has none throws, which the handler catches; a failed command has no result, which reads
as zero.
-/
def isAllowed (limiter : RedisRateLimiter) (key : String) (exec : Exec) (now : Nat)
    : Bool × RedisRateLimiter :=
  match exec with
  | .resolved (some results) =>
      match (results[2]? : Option CommandResult) with
      | some (.value count) => (count ≤ limiter.maxRequests, limiter)
      | some (.error _) => (0 ≤ limiter.maxRequests, limiter)
      | none => limiter.fallback key now
  | .resolved none | .rejected => limiter.fallback key now

end RedisRateLimiter

end WebIndexer.Redis
