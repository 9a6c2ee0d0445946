import WebIndexer.Kafka.UrlQueue
import WebIndexer.Library.Horner
import WebIndexer.Library.Rounding

/-! The numbers that `_domainPartition` of `src/kafka.ts` computes with. Its hash is a double that
`| 0` takes to a signed number of 32 bits after every step; no step rounds, so that the hash is the
32-bit value of a sum, and its absolute value has no overflow.
-/

namespace WebIndexer.Kafka

open WebIndexer.Library
open WebIndexer.Runtime

/-- A topic as `admin.createTopics` takes it. -/
structure TopicConfig where
  topic : String
  numPartitions : Nat
  replicationFactor : Nat
  deriving DecidableEq, Repr

/-- `CRAWL_TOPIC`. -/
def crawlTopic : String := "crawl-urls"

/-- The topics that `init` creates. -/
def topics : List TopicConfig := [
  ⟨crawlTopic, 6, 1⟩,
  ⟨"crawl-urls-dlq", 1, 1⟩,
  ⟨"crawl-urls-processed", 1, 1⟩
]

/-- The signed 32-bit value of an integer. -/
def signed32 (value : Int) : Int := value.bmod (2 ^ 32)

/-- `number | 0`: the fraction is dropped, towards zero, and 32 bits of the rest are kept. -/
def toInt32 (number : ℚ) : Int := signed32 (if 0 ≤ number then ⌊number⌋ else ⌈number⌉)

/-- A step of the hash, `hash = (hash * 31 + unit) | 0`, on doubles. -/
def hashStep (hash : Int) (unit : Nat) : Int := toInt32 (double (double (hash * 31) + unit))

/-- `_domainPartition` on doubles. -/
def numberPartition (api : UrlApi) (url : String) : Int :=
  match api.parse url with
  | none => 0
  | some parsed => |(codeUnits parsed.hostname).foldl hashStep 0| % 6

-----------------------------------------------------------------------------------------
-- The hash
-----------------------------------------------------------------------------------------

/-- A code unit has 16 bits. -/
theorem lt_of_mem_codeUnits {text : String} {unit : Nat} (member : unit ∈ codeUnits text)
    : unit < 2 ^ 16 := by
  obtain ⟨char, _, member⟩ := List.mem_flatMap.mp member
  have bound : char.toNat < 0x110000 := by
    rcases char.valid with low | ⟨_, high⟩
    · exact Nat.lt_trans low (by decide)
    · exact high
  unfold charCodes at member
  split at member
  · have same := List.mem_singleton.mp member
    omega
  · rcases List.mem_pair.mp member with high | low <;> omega

/-- A step from 32 bits is exact: what it computes before `| 0` has less than 37 bits. -/
theorem hashStep_eq {hash : Int} {unit : Nat} (bounded : |hash| ≤ 2 ^ 31) (small : unit < 2 ^ 16)
    : hashStep hash unit = signed32 (hash * 31 + unit) := by
  have range := abs_le.mp bounded
  have product : double ((hash : ℚ) * 31) = ((hash * 31 : Int) : ℚ) := by
    have fits : |hash * 31| < 2 ^ 53 := abs_lt.mpr ⟨by omega, by omega⟩
    rw [double, ← roundTo_intCast fits]
    push_cast
    rfl
  have sum : double (((hash * 31 : Int) : ℚ) + unit) = ((hash * 31 + unit : Int) : ℚ) := by
    have fits : |hash * 31 + unit| < 2 ^ 53 := abs_lt.mpr ⟨by omega, by omega⟩
    rw [double, ← roundTo_intCast fits]
    push_cast
    rfl
  rw [hashStep, toInt32, product, sum, Int.floor_intCast, Int.ceil_intCast, ite_self]

theorem abs_signed32_le (value : Int) : |signed32 value| ≤ 2 ^ 31 := by
  have low := @Int.le_bmod value (2 ^ 32) (by decide)
  have high := @Int.bmod_lt value (2 ^ 32) (by decide)
  exact abs_le.mpr ⟨low, by unfold signed32; omega⟩

/-- Keeping 32 bits at each step comes to keeping them at the end; induction on the units. -/
theorem foldl_hashStep {units : List Nat} (small : ∀ unit ∈ units, unit < 2 ^ 16) (start : Nat)
    : units.foldl hashStep (signed32 start)
      = signed32 (units.foldl (fun hash unit => hash * 31 + unit) start : Nat) := by
  induction units generalizing start with
  | nil => rw [List.foldl_nil, List.foldl_nil]
  | cons unit units ih =>
      obtain ⟨unit_small, small⟩ := List.forall_mem_cons.mp small
      have step : hashStep (signed32 start) unit = signed32 (start * 31 + unit : Nat) := by
        rw [hashStep_eq (abs_signed32_le start) unit_small, signed32, signed32, signed32,
          ← Int.bmod_add_bmod, Int.bmod_mul_bmod, Int.bmod_add_bmod]
        push_cast
        rfl
      rw [List.foldl_cons, step, ih small, List.foldl_cons]

/-- The hash on words of 32 bits holds the same value. -/
theorem toInt_domainHash (units : List Nat)
    : (domainHash units).toInt = signed32 (placeValue 31 units : Nat) := by
  have wraps : domainHash units
      = BitVec.ofNat 32 (units.foldl (fun hash unit => hash * 31 + unit) 0) := by
    refine List.foldl_hom (BitVec.ofNat 32) fun hash unit => ?_
    rw [BitVec.ofNat_add, BitVec.ofNat_mul]
    rfl
  rw [wraps, BitVec.toInt_ofNat', foldl_horner, Nat.zero_mul, Nat.zero_add]
  rfl

/-- The doubles come to the partition of the words. -/
theorem numberPartition_eq (api : UrlApi) (url : String)
    : numberPartition api url = domainPartition api url := by
  unfold numberPartition domainPartition
  cases api.parse url with
  | none => rfl
  | some parsed =>
      have hash := @foldl_hashStep (codeUnits parsed.hostname)
        (fun _ member => lt_of_mem_codeUnits member) 0
      rw [foldl_horner, Nat.zero_mul, Nat.zero_add, ← toInt_domainHash] at hash
      change |(codeUnits parsed.hostname).foldl hashStep (signed32 (0 : Nat))| % 6 = _
      rw [hash, Int.abs_eq_natAbs]
      rfl

-----------------------------------------------------------------------------------------
-- The partition
-----------------------------------------------------------------------------------------

/-- For every text the partition is one of those that `init` creates for the crawl topic, and the
doubles of the code come to it. For an address it is that of the absolute value of the hash, the
signed 32-bit value of the sum of its code units with powers of 31; the least value has no
absolute value in 32 bits, but has one as a double.
-/
theorem partition_valid (api : UrlApi) (url : String)
    : (∃ topic ∈ topics,
        topic.topic = crawlTopic ∧ domainPartition api url < topic.numPartitions)
      ∧ numberPartition api url = domainPartition api url
      ∧ ∀ parsed ∈ api.parse url,
          (domainPartition api url : Int)
            = |signed32 (∑ i : Fin (codeUnits parsed.hostname).length,
                (codeUnits parsed.hostname)[i]
                  * 31 ^ ((codeUnits parsed.hostname).length - 1 - i) : Nat)| % 6 := by
  refine ⟨⟨⟨crawlTopic, 6, 1⟩, List.mem_cons_self, rfl, ?_⟩, numberPartition_eq api url, ?_⟩
  · unfold domainPartition
    cases api.parse url with
    | none => decide
    | some parsed => exact Nat.mod_lt _ (by decide)
  · intro parsed parses
    have value := toInt_domainHash (codeUnits parsed.hostname)
    rw [domainPartition, Option.mem_def.mp parses]
    simp only
    rw [value, Int.natCast_mod, Int.natCast_natAbs]
    rfl

/-- A host name whose hash is the least value of 32 bits. -/
theorem partition_valid_of_least
    : (domainHash (codeUnits "polygenelubricants")).toInt = -2 ^ 31
      ∧ (domainPartition plainUrlApi "https://polygenelubricants/" : Int) = |(-2) ^ 31| % 6 := by
  have least : (domainHash (codeUnits "polygenelubricants")).toInt = -2 ^ 31 := by
    decide +kernel
  refine ⟨least, ?_⟩
  rw [(partition_valid plainUrlApi "https://polygenelubricants/").2.2 _ rfl]
  have value := toInt_domainHash (codeUnits "polygenelubricants")
  rw [least] at value
  exact congrArg (fun hash : Int => |hash| % 6) value.symm

end WebIndexer.Kafka
