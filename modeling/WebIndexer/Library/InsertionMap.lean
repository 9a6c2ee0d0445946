import Mathlib.Data.List.Nodup

/-! Maps that remember the order of insertion, as the script runtime's `Map` does, and can
forget their oldest entries.
-/

namespace WebIndexer.Library

/-- Entries with distinct keys, oldest first. -/
structure InsertionMap (κ β : Type*) where
  entries : List (κ × β)
  nodup : (entries.map Prod.fst).Nodup

namespace InsertionMap

variable {κ β : Type*}

/-- The keys, oldest first. -/
def keys (map : InsertionMap κ β) : List κ := map.entries.map Prod.fst

/-- The map with no entries. -/
def empty : InsertionMap κ β := ⟨[], List.nodup_nil⟩

/-- The number of entries. -/
def size (map : InsertionMap κ β) : Nat := map.entries.length

/-- Forget the given number of entries, oldest first. -/
def dropOldest (map : InsertionMap κ β) (count : Nat) : InsertionMap κ β where
  entries := map.entries.drop count
  nodup := map.nodup.sublist ((List.drop_sublist ..).map _)

/-- Forgetting entries adds none. -/
theorem mem_of_mem_dropOldest {map : InsertionMap κ β} {count : Nat} {entry : κ × β}
    (member : entry ∈ (map.dropOldest count).entries)
    : entry ∈ map.entries :=
  List.mem_of_mem_drop member

@[simp] theorem size_dropOldest (map : InsertionMap κ β) (count : Nat)
    : (map.dropOldest count).size = map.size - count :=
  List.length_drop

theorem mem_keys_of_mem_dropOldest {map : InsertionMap κ β} {count : Nat} {key : κ}
    (member : key ∈ (map.dropOldest count).keys)
    : key ∈ map.keys :=
  ((List.drop_sublist count map.entries).map Prod.fst).subset member

/-- Keep the entries that pass a test. -/
def filter (map : InsertionMap κ β) (keep : κ × β → Bool) : InsertionMap κ β where
  entries := map.entries.filter keep
  nodup := map.nodup.sublist (List.filter_sublist.map _)

variable [DecidableEq κ]

/-- The value of a key. -/
def get? (map : InsertionMap κ β) (key : κ) : Option β :=
  (map.entries.find? fun entry => entry.1 = key).map Prod.snd

/-- Give a key its value: in place when the key is present, at the end otherwise. -/
def set (map : InsertionMap κ β) (key : κ) (value : β) : InsertionMap κ β :=
  if absent : key ∉ map.entries.map Prod.fst then
    ⟨map.entries ++ [(key, value)], by
      rw [List.map_append]
      exact map.nodup.append (List.nodup_singleton key) (by simpa using absent)⟩
  else
    ⟨map.entries.map fun entry => if entry.1 = key then (key, value) else entry, by
      have sameKeys
          : (map.entries.map fun entry => if entry.1 = key then (key, value) else entry).map
              Prod.fst
            = map.entries.map Prod.fst := by
        rw [List.map_map]
        apply List.map_congr_left
        intro entry _
        by_cases same : entry.1 = key <;> simp [same]
      rw [sameKeys]
      exact map.nodup⟩

/-- A value that is found belongs to an entry. -/
theorem mem_of_get? {map : InsertionMap κ β} {key : κ} {value : β}
    (found : map.get? key = some value)
    : (key, value) ∈ map.entries := by
  obtain ⟨entry, present, rfl⟩ := Option.map_eq_some_iff.mp found
  have same : entry.1 = key := by simpa using List.find?_some present
  subst same
  exact List.mem_of_find?_eq_some present

/-- The entries after an assignment are old ones and the new one. -/
theorem mem_of_mem_set {map : InsertionMap κ β} {key : κ} {value : β} {entry : κ × β}
    (member : entry ∈ (map.set key value).entries)
    : entry = (key, value) ∨ entry ∈ map.entries := by
  unfold set at member
  split at member
  · rcases List.mem_append.mp member with old | new
    · exact .inr old
    · exact .inl (List.mem_singleton.mp new)
  · obtain ⟨old, present, rfl⟩ := List.mem_map.mp member
    split
    · exact .inl rfl
    · exact .inr present

/-- A new key goes to the end. -/
theorem entries_set_of_not_mem {map : InsertionMap κ β} {key : κ} (value : β)
    (absent : key ∉ map.keys)
    : (map.set key value).entries = map.entries ++ [(key, value)] := by
  unfold set
  exact congrArg entries (dif_pos absent)

/-- An assignment to a key that is present keeps the keys. -/
theorem keys_set_of_mem {map : InsertionMap κ β} {key : κ} (value : β)
    (present : key ∈ map.keys)
    : (map.set key value).keys = map.keys := by
  unfold set
  split
  · rename_i absent
    exact absurd present absent
  · simp only [keys, List.map_map]
    apply List.map_congr_left
    intro entry _
    by_cases same : entry.1 = key <;> simp [same]

/-- The keys after an assignment are the old ones and the assigned one. -/
@[simp] theorem mem_keys_set {map : InsertionMap κ β} {key other : κ} {value : β}
    : other ∈ (map.set key value).keys ↔ other = key ∨ other ∈ map.keys := by
  by_cases present : key ∈ map.keys
  · rw [keys_set_of_mem value present]
    constructor
    · exact .inr
    · intro member
      rcases member with rfl | member
      · exact present
      · exact member
  · simp [keys, entries_set_of_not_mem value present, or_comm]

/-- An assignment adds an entry, unless the key is present. -/
theorem size_set {map : InsertionMap κ β} {key : κ} {value : β}
    : (map.set key value).size = map.size + if key ∈ map.keys then 0 else 1 := by
  split
  · rename_i present
    have lengths := congrArg List.length (keys_set_of_mem value present)
    rwa [keys, List.length_map, keys, List.length_map] at lengths
  · rename_i absent
    rw [size, entries_set_of_not_mem value absent, List.length_append, List.length_singleton,
      size]

/-- The value of a key is the one that it is entered with. -/
theorem get?_eq_some_iff {map : InsertionMap κ β} {key : κ} {value : β}
    : map.get? key = some value ↔ (key, value) ∈ map.entries := by
  refine ⟨mem_of_get?, fun member => ?_⟩
  have found : (map.entries.find? fun entry => entry.1 = key).isSome :=
    List.find?_isSome.mpr ⟨(key, value), member, by simp⟩
  obtain ⟨entry, found⟩ := Option.isSome_iff_exists.mp found
  have same : entry.1 = key := by simpa using List.find?_some found
  obtain rfl : entry = (key, value) :=
    List.inj_on_of_nodup_map map.nodup (List.mem_of_find?_eq_some found) member same
  exact congrArg (Option.map Prod.snd) found

/-- An assigned key is entered with its value. -/
theorem mem_set_self (map : InsertionMap κ β) (key : κ) (value : β)
    : (key, value) ∈ (map.set key value).entries := by
  unfold set
  split
  · exact List.mem_append_right _ List.mem_cons_self
  · rename_i present
    obtain ⟨old, member, same⟩ := List.mem_map.mp (not_not.mp present)
    exact List.mem_map.mpr ⟨old, member, if_pos same⟩

/-- An assigned key is found with its value. -/
@[simp] theorem get?_set_self (map : InsertionMap κ β) (key : κ) (value : β)
    : (map.set key value).get? key = some value :=
  get?_eq_some_iff.mpr (mem_set_self map key value)

/-- An assignment keeps the entries of other keys. -/
theorem mem_set_of_ne {map : InsertionMap κ β} {key other : κ} {value old : β}
    (differs : other ≠ key) (member : (other, old) ∈ map.entries)
    : (other, old) ∈ (map.set key value).entries := by
  unfold set
  split
  · exact List.mem_append_left _ member
  · exact List.mem_map.mpr ⟨(other, old), member, if_neg differs⟩

/-- An assignment leaves the values of other keys. -/
theorem get?_set_of_ne {map : InsertionMap κ β} {key other : κ} {value : β}
    (differs : other ≠ key)
    : (map.set key value).get? other = map.get? other := by
  apply Option.ext
  intro found
  rw [get?_eq_some_iff, get?_eq_some_iff]
  constructor
  · intro member
    rcases mem_of_mem_set member with same | old
    · exact absurd (congrArg Prod.fst same) differs
    · exact old
  · exact mem_set_of_ne differs

/-- A key of a filtered map has the value that it had, if its entry passes the test. -/
theorem get?_filter {map : InsertionMap κ β} {keep : κ × β → Bool} {key : κ}
    : (map.filter keep).get? key = (map.get? key).filter fun value => keep (key, value) := by
  apply Option.ext
  intro found
  rw [get?_eq_some_iff, Option.filter_eq_some_iff, get?_eq_some_iff]
  exact List.mem_filter

/-- Replacing the entry of a key counts the new value instead of the old one, by induction over
the entries.
-/
theorem countP_replace {entries : List (κ × β)} (distinct : (entries.map Prod.fst).Nodup)
    (key : κ) (value : β) (test : κ × β → Bool)
    : (entries.map fun entry => if entry.1 = key then (key, value) else entry).countP test
        + (if (entries.find? fun entry => entry.1 = key).any test then 1 else 0)
      = entries.countP test
        + if key ∈ entries.map Prod.fst ∧ test (key, value) then 1 else 0 := by
  induction entries with
  | nil => simp
  | cons entry rest ih =>
      obtain ⟨absent, distinct⟩ := List.nodup_cons.mp distinct
      by_cases same : entry.1 = key
      · -- the key is not met again
        have kept
            : rest.map (fun other => if other.1 = key then (key, value) else other) = rest := by
          conv_rhs => rw [← List.map_id rest]
          apply List.map_congr_left
          intro other member
          have differs : other.1 ≠ key := by
            rintro again
            exact absent (same ▸ again ▸ List.mem_map_of_mem member)
          exact if_neg differs
        have found : (entry :: rest).find? (fun other => other.1 = key) = some entry :=
          List.find?_cons_of_pos (decide_eq_true same)
        simp only [found, Option.any_some, List.map_cons, same, if_true, kept, List.countP_cons,
          List.mem_cons, true_or, true_and]
        omega
      · have later := ih distinct
        have passed : (entry :: rest).find? (fun other => other.1 = key)
            = rest.find? fun other => other.1 = key :=
          List.find?_cons_of_neg (by simpa using same)
        simp only [passed, List.map_cons, same, if_false, List.countP_cons, List.mem_cons,
          Ne.symm same, false_or]
        omega

/-- An assignment counts the new value instead of the old one, if there is one. -/
theorem countP_set (map : InsertionMap κ β) (key : κ) (value : β) (test : κ × β → Bool)
    : (map.set key value).entries.countP test
        + (if (map.get? key).any fun old => test (key, old) then 1 else 0)
      = map.entries.countP test + if test (key, value) then 1 else 0 := by
  have old : (map.get? key).any (fun old => test (key, old))
      = (map.entries.find? fun entry => entry.1 = key).any test := by
    cases found : map.entries.find? fun entry => entry.1 = key with
    | none => simp [get?, found]
    | some entry =>
        have same : entry.1 = key := by simpa using List.find?_some found
        rw [get?, found, Option.map_some, Option.any_some, Option.any_some, ← same]
  have replaced := countP_replace map.nodup key value test
  rw [old]
  unfold set
  split
  · rename_i absent
    have none : map.entries.find? (fun entry => entry.1 = key) = none := by
      refine List.find?_eq_none.mpr fun entry member same => absent ?_
      exact of_decide_eq_true same ▸ List.mem_map_of_mem member
    simp [none, List.countP_append, List.countP_cons]
  · rename_i present
    rw [replaced]
    simp only [not_not.mp present, true_and]

/-- An assignment adds one to a count of entries at most. -/
theorem countP_set_le (map : InsertionMap κ β) (key : κ) (value : β) (test : κ × β → Bool)
    : (map.set key value).entries.countP test
      ≤ map.entries.countP test + if test (key, value) then 1 else 0 := by
  have exact := map.countP_set key value test
  omega

/-- The keys after some assignments, by induction over them. -/
theorem mem_keys_foldl_set {map : InsertionMap κ β} {added : List (κ × β)} {key : κ}
    : key ∈ (added.foldl (fun map entry => map.set entry.1 entry.2) map).keys
      ↔ key ∈ map.keys ∨ key ∈ added.map Prod.fst := by
  induction added generalizing map with
  | nil => simp
  | cons entry rest ih =>
      rw [List.foldl_cons, ih, mem_keys_set, List.map_cons, List.mem_cons, or_assoc, or_left_comm]

/-- Entries with new and distinct keys go to the end, by induction over them. -/
theorem entries_foldl_set {map : InsertionMap κ β} {added : List (κ × β)}
    (distinct : (map.keys ++ added.map Prod.fst).Nodup)
    : (added.foldl (fun map entry => map.set entry.1 entry.2) map).entries
      = map.entries ++ added := by
  induction added generalizing map with
  | nil => simp
  | cons entry rest ih =>
      have absent : entry.1 ∉ map.keys := by
        intro present
        exact (List.nodup_append.mp distinct).2.2 _ present _ (by simp) rfl
      have entered : (map.set entry.1 entry.2).entries = map.entries ++ [entry] :=
        entries_set_of_not_mem entry.2 absent
      have later : ((map.set entry.1 entry.2).keys ++ rest.map Prod.fst).Nodup := by
        rw [keys, entered]
        simpa [keys] using distinct
      rw [List.foldl_cons, ih later, entered, List.append_assoc, List.singleton_append]

end InsertionMap

end WebIndexer.Library
