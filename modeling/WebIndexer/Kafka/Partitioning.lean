import WebIndexer.Fetcher.HostNames
import WebIndexer.Kafka.UrlQueue
import Mathlib.Algebra.GroupWithZero.Nat

/-! The two notions of domain of the program: `_domainPartition` of `src/kafka.ts` hashes the
host name of an address, and `getDomain` of `src/fetcher.ts`, which the limit per domain counts
by, first removes a `www.` from it. The hash keeps the parity of a name, and a `www.` changes
that.
-/

namespace WebIndexer.Kafka

open WebIndexer.Fetcher
open WebIndexer.Runtime

/-- The host name of an address, or the empty string if it cannot be parsed. -/
def hostOf (api : UrlApi) (url : String) : String :=
  match api.parse url with
  | some parsed => parsed.hostname
  | none => ""

/-- The host name of an address contains `www.`. -/
def HasWww (api : UrlApi) (url : String) : Prop :=
  www <:+: (hostOf api url).toList

/-- Two addresses have the same partition if they have the same domain. -/
def KeptTogether (api : UrlApi) (url other : String) : Prop :=
  getDomain api url = getDomain api other → domainPartition api url = domainPartition api other

/-- Two addresses have the same host name if they have the same domain. -/
def SameHost (api : UrlApi) (url other : String) : Prop :=
  getDomain api url = getDomain api other → hostOf api url = hostOf api other

-----------------------------------------------------------------------------------------
-- Both notions as functions of the host name
-----------------------------------------------------------------------------------------

/-- An address that cannot be parsed has the domain of an empty host name. -/
theorem getDomain_eq (api : UrlApi) (url : String)
    : getDomain api url = replaceFirst (hostOf api url) "www." "" := by
  unfold getDomain hostOf
  cases api.parse url with
  | some parsed => rfl
  | none => rfl

/-- An address that cannot be parsed has the partition of an empty host name. -/
theorem domainPartition_eq (api : UrlApi) (url : String)
    : domainPartition api url
      = (domainHash (codeUnits (hostOf api url))).toInt.natAbs % 6 := by
  unfold domainPartition hostOf
  cases api.parse url with
  | some parsed => rfl
  | none => rfl

-----------------------------------------------------------------------------------------
-- The parity of the hash
-----------------------------------------------------------------------------------------

/-- The factor of the hash is odd, so each code unit adds its parity, by induction on the units.
-/
theorem parity_foldl (units : List Nat) (hash : BitVec 32)
    : (units.foldl (fun hash unit => hash * 31 + BitVec.ofNat 32 unit) hash).toNat % 2
      = (hash.toNat + units.sum) % 2 := by
  induction units generalizing hash with
  | nil => rfl
  | cons unit rest ih =>
      have step : (hash * 31 + BitVec.ofNat 32 unit).toNat % 2 = (hash.toNat + unit) % 2 := by
        have factor : BitVec.toNat (31 : BitVec 32) = 31 := rfl
        rw [BitVec.toNat_add, BitVec.toNat_mul, BitVec.toNat_ofNat, factor]
        omega
      rw [List.foldl_cons, ih, List.sum_cons]
      omega

/-- Reading a word as a signed number keeps its parity. -/
theorem parity_natAbs_toInt (hash : BitVec 32) : hash.toInt.natAbs % 2 = hash.toNat % 2 := by
  rw [BitVec.toInt_eq_toNat_cond]
  split <;> omega

/-- The partition of an address has the parity of its host name's code units. -/
theorem parity_domainPartition (api : UrlApi) (url : String)
    : domainPartition api url % 2 = (codeUnits (hostOf api url)).sum % 2 := by
  have parity := parity_natAbs_toInt (domainHash (codeUnits (hostOf api url)))
  have start : BitVec.toNat (0 : BitVec 32) = 0 := rfl
  rw [domainPartition_eq, Nat.mod_mod_of_dvd _ (by decide), parity, domainHash, parity_foldl,
    start, Nat.zero_add]

/-- The sum of the code units of some characters. -/
def unitSum (chars : List Char) : Nat :=
  (chars.flatMap charCodes).sum

@[simp] theorem unitSum_append (front back : List Char)
    : unitSum (front ++ back) = unitSum front + unitSum back := by
  rw [unitSum, List.flatMap_append, List.sum_append, unitSum, unitSum]

/-- Without its first `www.` a name has the other parity. -/
theorem parity_withoutWww {host : List Char} (occurs : www <:+: host)
    : unitSum host % 2 ≠ unitSum (withoutWww host) % 2 := by
  obtain ⟨front, back, first⟩ := Library.exists_firstAt occurs
  have odd : unitSum www = 403 := rfl
  rw [withoutWww, replaceFirstIn_of_firstAt first, first.parts]
  simp only [unitSum_append, odd, List.nil_append]
  omega

/-- Of two host names that are equal without `www.`, one of them with a `www.` and the other
without, the partitions differ.
-/
theorem domainPartition_ne {api : UrlApi} {url other : String}
    (same : getDomain api url = getDomain api other) (has : HasWww api url)
    (hasNot : ¬HasWww api other)
    : domainPartition api url ≠ domainPartition api other := by
  intro together
  have removed : withoutWww (hostOf api url).toList = (hostOf api other).toList := by
    rw [getDomain_eq, getDomain_eq] at same
    have chars := congrArg String.toList same
    rw [toList_replaceFirst_www, toList_replaceFirst_www] at chars
    rw [chars]
    exact replaceFirstIn_of_absent hasNot
  have parity := parity_withoutWww has
  rw [removed] at parity
  apply parity
  change (codeUnits (hostOf api url)).sum % 2 = (codeUnits (hostOf api other)).sum % 2
  rw [← parity_domainPartition, ← parity_domainPartition, together]

/-- Two host names without a `www.` are equal if the domains are. -/
theorem hostOf_eq {api : UrlApi} {url other : String}
    (same : getDomain api url = getDomain api other) (hasNot : ¬HasWww api url)
    (otherNot : ¬HasWww api other)
    : hostOf api url = hostOf api other := by
  rw [getDomain_eq, getDomain_eq] at same
  have chars := congrArg String.toList same
  rw [toList_replaceFirst_www, toList_replaceFirst_www, withoutWww, withoutWww,
    replaceFirstIn_of_absent hasNot, replaceFirstIn_of_absent otherNot] at chars
  exact String.toList_injective chars

/-- The addresses of a domain are kept together when they have the same host name. Unless both
host names contain `www.`, where two hashes may fall together, they are only kept together then.
-/
theorem keptTogether_iff (api : UrlApi) (url other : String)
    : (SameHost api url other → KeptTogether api url other)
      ∧ (¬(HasWww api url ∧ HasWww api other) →
        (KeptTogether api url other ↔ SameHost api url other)) := by
  have enough : SameHost api url other → KeptTogether api url other := by
    intro sameHost same
    rw [domainPartition_eq, domainPartition_eq, sameHost same]
  refine ⟨enough, fun notBoth => ⟨fun together same => ?_, enough⟩⟩
  by_cases has : HasWww api url
  · have otherNot : ¬HasWww api other := fun otherHas => notBoth ⟨has, otherHas⟩
    exact absurd (together same) (domainPartition_ne same has otherNot)
  · by_cases otherHas : HasWww api other
    · exact absurd (together same).symm (domainPartition_ne same.symm otherHas has)
    · exact hostOf_eq same has otherHas

/-- Two host names with a `www.` whose hashes fall together. -/
example : domainPartition plainUrlApi "https://www.c.example/"
    = domainPartition plainUrlApi "https://c.www.example/" := by
  decide

/-- A site and its `www.` alias have the same domain and different partitions. -/
theorem keptTogether_fails_for_alias
    : ¬ ∀ (api : UrlApi) (url other : String), KeptTogether api url other := by
  intro claim
  exact absurd (claim plainUrlApi "https://www.a.example/" "https://a.example/" (by decide))
    (by decide)

end WebIndexer.Kafka
