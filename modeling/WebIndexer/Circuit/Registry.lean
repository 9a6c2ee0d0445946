import WebIndexer.Circuit.CircuitBreaker
import WebIndexer.Library.InsertionMap

/-! The breakers that the program shares by name: `getBreaker` and `getAllBreakers` of
`src/circuit.ts`.
-/

namespace WebIndexer.Circuit

open WebIndexer.Library

/-- `breakers`. -/
abbrev Registry := InsertionMap String CircuitBreaker

/-- `getBreaker`. A name in the options takes the place of the name that is asked for. -/
def getBreaker (name : String) (options : Option CircuitBreakerOptions) (now : Nat)
    (breakers : Registry)
    : Registry × CircuitBreaker :=
  match breakers.get? name with
  | some breaker => (breakers, breaker)
  | none =>
      let given := options.getD {}
      let breaker := CircuitBreaker.create { given with name := some (given.name.getD name) } now
      (breakers.set name breaker, breaker)

/-- `getAllBreakers`: the breakers after each one's `getStatus`, with what these return. -/
def getAllBreakers (breakers : Registry) (now : Nat) : Registry × List CircuitBreaker.Status :=
  (⟨breakers.entries.map fun entry => (entry.1, (entry.2.getStatus now).1), by
      rw [List.map_map]
      exact breakers.nodup⟩,
    breakers.entries.map fun entry => (entry.2.getStatus now).2)

/-- The names that the breakers have themselves. -/
def breakerNames (breakers : Registry) : List String :=
  breakers.entries.map fun entry => entry.2.name

/-- A new breaker is registered last, and bears the name asked for unless its options name it. -/
theorem breakerNames_getBreaker {name : String} {options : CircuitBreakerOptions}
    {breakers : Registry} (now : Nat) (unnamed : options.name = none) (named : name ≠ "")
    (absent : name ∉ breakers.keys)
    : breakerNames (getBreaker name options now breakers).1 = breakerNames breakers ++ [name] := by
  have missing : breakers.get? name = none := by
    rw [Option.eq_none_iff_forall_ne_some]
    intro breaker found
    exact absent (List.mem_map_of_mem (InsertionMap.mem_of_get? found))
  have own : (CircuitBreaker.create { options with name := some (options.name.getD name) }
      now).name = name := by
    rw [unnamed, Option.getD_none, CircuitBreaker.create]
    split
    · rename_i empty
      exact absurd (Option.some.inj empty) named
    · rename_i none
      cases none
    · rename_i other _ same
      exact (Option.some.inj same).symm
  simp only [getBreaker, missing, breakerNames, InsertionMap.entries_set_of_not_mem _ absent,
    List.map_append, List.map_cons, List.map_nil, Option.getD_some, own]

/-- Reading a breaker's state does not rename it. -/
@[simp] theorem name_currentState (breaker : CircuitBreaker) (now : Nat)
    : (breaker.currentState now).name = breaker.name := by
  unfold CircuitBreaker.currentState
  split
  · rfl
  · rfl

/-- The statuses carry the breakers' own names. -/
theorem map_name_getAllBreakers (breakers : Registry) (now : Nat)
    : (getAllBreakers breakers now).2.map CircuitBreaker.Status.name = breakerNames breakers := by
  rw [getAllBreakers, List.map_map]
  exact List.map_congr_left fun entry _ => name_currentState entry.2 now

end WebIndexer.Circuit
