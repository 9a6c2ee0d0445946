import Mathlib.Data.List.TakeWhile
import WebIndexer.Library.Along
import WebIndexer.Library.FirstFailure
import WebIndexer.Library.Rounding
import WebIndexer.Runtime.Text

/-! The runs of `migrations/migrate.ts`. It takes the files in the order of their names, and knows
them by the numbers in front of their names.
-/

namespace WebIndexer.Store

open WebIndexer.Library
open WebIndexer.Runtime

-----------------------------------------------------------------------------------------
-- Files
-----------------------------------------------------------------------------------------

/-- A digit, as a code unit. -/
def isDigitUnit (unit : Nat) : Bool := 0x30 ≤ unit && unit ≤ 0x39

/-- The number that digits write. -/
def digitsValue (digits : List Nat) : Nat :=
  digits.foldl (fun value unit => value * 10 + (unit - 0x30)) 0

/-- `parseInt` of code units that start with no white space, sign or hexadecimal head: the double
of the number that the leading digits write, or nothing, which stands for `NaN`.
-/
def parseUnits (units : List Nat) : Option ℚ :=
  match units.takeWhile isDigitUnit with
  | [] => none
  | digit :: digits => some (double (digitsValue (digit :: digits)))

/-- `file.split("_")[0]`. -/
def numberText (file : List Nat) : List Nat := file.takeWhile (· != 0x5F)

/-- The version of a file, which its script records. -/
def version (file : List Nat) : Nat := digitsValue (numberText file)

/-- The number that the code takes for the version of a file. -/
def parsedVersion (file : List Nat) : Option ℚ := parseUnits (numberText file)

/-- `file.endsWith(".sql")`. -/
def isSql (file : List Nat) : Bool := (codeUnits ".sql").isSuffixOf file

/-- A name of the form `<digits>_<name>.sql`. -/
def IsNamed (file : List Nat) : Prop :=
  ∃ digits name,
    digits ≠ [] ∧ (∀ unit ∈ digits, isDigitUnit unit = true)
    ∧ file = digits ++ 0x5F :: name ++ codeUnits ".sql"

/-- The entries of a directory whose scripts are migrations, with versions of their own. -/
structure Migrations where
  entries : List (List Nat)
  named : ∀ file ∈ entries, isSql file = true → IsNamed file
  distinct : (entries.filter isSql).Pairwise fun file other => version file ≠ version other

/-- The order of `sort()`, which compares code units. -/
def comesBefore : List Nat → List Nat → Bool
  | [], _ => true
  | _ :: _, [] => false
  | unit :: units, other :: others =>
      decide (unit < other) || (decide (unit = other) && comesBefore units others)

/-- The scripts, in the order that they are taken in. -/
def Migrations.files (migrations : Migrations) : List (List Nat) :=
  (migrations.entries.filter isSql).mergeSort comesBefore

-----------------------------------------------------------------------------------------
-- Runs
-----------------------------------------------------------------------------------------

/-- What a run meets: whether `schema_migrations` cannot be read, and which scripts fail. -/
structure Conditions where
  unreadable : Bool
  fails : List Nat → Bool

/-- `getAppliedMigrations`, where the rows of `schema_migrations` are the recorded versions, none of
them when there is no such table yet. The driver returns each one as a double.
-/
def getAppliedMigrations (conditions : Conditions) (rows : List Nat) : List ℚ :=
  if conditions.unreadable then
    []
  else
    (rows.mergeSort fun row other => decide (row ≤ other)).map fun row => double row

/-- `getPendingMigrations`. -/
def getPendingMigrations (migrations : Migrations) (applied : List ℚ) : List (List Nat) :=
  migrations.files.filter fun file => !(applied.map some).contains (parsedVersion file)

/-- `runMigration`: the script is one transaction that records its version, as the primary key of
its row. When a statement fails, closing the database takes the transaction back.
-/
def runMigration (conditions : Conditions) (rows : List Nat) (file : List Nat)
    : Option (List Nat) :=
  if conditions.fails file || rows.contains (version file) then
    none
  else
    some (rows ++ [version file])

/-- `migrate`, which exits at the first failure. -/
def migrate (migrations : Migrations) (rows : List Nat) (conditions : Conditions)
    : Progress (List Nat) (List Nat) :=
  takeInOrder (runMigration conditions) rows
    (getPendingMigrations migrations (getAppliedMigrations conditions rows))

/-- The rows that a run leaves. -/
def rowsAfter (migrations : Migrations) (rows : List Nat) (conditions : Conditions) : List Nat :=
  (migrate migrations rows conditions).state

/-- The versions that a run applies, in order. -/
def appliedIn (migrations : Migrations) (rows : List Nat) (conditions : Conditions) : List Nat :=
  (migrate migrations rows conditions).done.map version

/-- The versions that a sequence of runs applies, in order. -/
def appliedBy (migrations : Migrations) : List Nat → List Conditions → List Nat
  | _, [] => []
  | rows, conditions :: rest =>
      appliedIn migrations rows conditions
      ++ appliedBy migrations (rowsAfter migrations rows conditions) rest

-----------------------------------------------------------------------------------------
-- What runs are for
-----------------------------------------------------------------------------------------

/-- A run applies the versions that are not recorded, in increasing order, up to the first failure,
and records all of them when there is none.
-/
structure Resumes (migrations : Migrations) (rows : List Nat) (conditions : Conditions) : Prop where
  increasing : (appliedIn migrations rows conditions).Pairwise (· < ·)
  exact : ∀ value,
    value ∈ appliedIn migrations rows conditions
      ↔ value ∈ migrations.files.map version ∧ value ∉ rows
        ∧ ∀ stop ∈ (migrate migrations rows conditions).failed, value < version stop
  complete : (migrate migrations rows conditions).failed = none →
    ∀ file ∈ migrations.files, version file ∈ rowsAfter migrations rows conditions

/-- Every sequence of runs from a fresh database resumes at each run, and applies nothing twice. -/
def Migrates (migrations : Migrations) : Prop :=
  ∀ runs,
    Along (rowsAfter migrations) (Resumes migrations) [] runs
    ∧ (appliedBy migrations [] runs).Nodup

/-- The order of the names is that of the versions, and no two versions are parsed to one number. -/
def InVersionOrder (migrations : Migrations) : Prop :=
  migrations.files.Pairwise fun file other =>
    version file < version other ∧ parsedVersion file ≠ parsedVersion other

-----------------------------------------------------------------------------------------
-- Names
-----------------------------------------------------------------------------------------

/-- The digits of a named file stand in front of its first `_`. -/
theorem numberText_of_named {digits rest : List Nat}
    (all_digits : ∀ unit ∈ digits, isDigitUnit unit = true)
    : numberText (digits ++ 0x5F :: rest) = digits := by
  have no_bar : ∀ unit ∈ digits, (unit != 0x5F) = true := by
    intro unit member
    have range := all_digits unit member
    rw [isDigitUnit, Bool.and_eq_true, decide_eq_true_eq, decide_eq_true_eq] at range
    rw [bne_iff_ne]
    omega
  rw [numberText, List.takeWhile_append_of_pos no_bar, List.takeWhile_cons_of_neg (by decide),
    List.append_nil]

/-- The version of a named file is parsed to its double. -/
theorem parsedVersion_of_named {file : List Nat} (named : IsNamed file)
    : parsedVersion file = some (double (version file)) := by
  obtain ⟨digits, name, some_digit, all_digits, rfl⟩ := named
  rw [List.append_assoc, List.cons_append, parsedVersion, version, numberText_of_named all_digits,
    parseUnits, List.takeWhile_eq_self_iff.mpr all_digits]
  cases digits with
  | nil => exact absurd rfl some_digit
  | cons digit digits => rfl

section Files

variable {migrations : Migrations} {file other : List Nat}

theorem mem_files : file ∈ migrations.files ↔ file ∈ migrations.entries ∧ isSql file = true := by
  rw [Migrations.files, List.mem_mergeSort, List.mem_filter]

theorem parsedVersion_of_mem (member : file ∈ migrations.files)
    : parsedVersion file = some (double (version file)) := by
  obtain ⟨entry, sql⟩ := mem_files.mp member
  exact parsedVersion_of_named (migrations.named file entry sql)

/-- Sorting keeps the versions apart. -/
theorem distinct_files (migrations : Migrations)
    : migrations.files.Pairwise fun file other => version file ≠ version other := by
  refine (List.mergeSort_perm _ _).symm.pairwise migrations.distinct ?_
  exact fun apart => Ne.symm apart

/-- Different files have different versions. -/
theorem version_injective (member : file ∈ migrations.files)
    (other_member : other ∈ migrations.files) (same : version file = version other)
    : file = other :=
  List.inj_on_of_nodup_map (List.pairwise_map.mpr (distinct_files migrations)) member other_member
    same

theorem nodup_files (migrations : Migrations) : migrations.files.Nodup :=
  (distinct_files migrations).imp fun apart same => apart (congrArg version same)

end Files

-----------------------------------------------------------------------------------------
-- One run
-----------------------------------------------------------------------------------------

section Run

variable {migrations : Migrations} {conditions : Conditions} {rows : List Nat}
  {file : List Nat}

/-- A script that runs records its version. -/
theorem runMigration_logs (conditions : Conditions) (rows file next : List Nat)
    (taken : runMigration conditions rows file = some next)
    : next = rows ++ [version file] := by
  unfold runMigration at taken
  split at taken
  · cases taken
  · exact (Option.some.inj taken).symm

/-- A script fails by itself, or because its version is recorded. -/
theorem runMigration_refuses
    : runMigration conditions rows file = none
      ↔ conditions.fails file = true ∨ version file ∈ rows := by
  unfold runMigration
  split <;> simp_all

/-- The primary key keeps the recorded versions apart. -/
theorem nodup_runMigration (conditions : Conditions) (rows file next : List Nat)
    (nodup : rows.Nodup) (taken : runMigration conditions rows file = some next)
    : next.Nodup := by
  have new : version file ∉ rows := by
    intro recorded
    rw [runMigration_refuses.mpr (.inr recorded)] at taken
    cases taken
  rw [runMigration_logs conditions rows file next taken]
  exact List.nodup_append.mpr ⟨nodup, List.nodup_singleton _, fun row recorded _ single same =>
    new (List.mem_singleton.mp single ▸ same ▸ recorded)⟩

/-- A run adds the versions that it applies to the rows. -/
theorem rowsAfter_eq (migrations : Migrations) (rows : List Nat) (conditions : Conditions)
    : rowsAfter migrations rows conditions = rows ++ appliedIn migrations rows conditions :=
  takeInOrder_log (runMigration_logs conditions) rows _

theorem nodup_rowsAfter (nodup : rows.Nodup) : (rowsAfter migrations rows conditions).Nodup :=
  takeInOrder_invariant (nodup_runMigration conditions) nodup

/-- A run applies no version that is recorded. -/
theorem not_mem_of_mem_appliedIn (nodup : rows.Nodup) {value : Nat}
    (applied : value ∈ appliedIn migrations rows conditions)
    : value ∉ rows := by
  have apart := @nodup_rowsAfter migrations conditions rows nodup
  rw [rowsAfter_eq] at apart
  exact fun recorded => (List.nodup_append.mp apart).2.2 value recorded value applied rfl

/-- The scripts that a run finds pending. -/
def pendingIn (migrations : Migrations) (rows : List Nat) (conditions : Conditions)
    : List (List Nat) :=
  getPendingMigrations migrations (getAppliedMigrations conditions rows)

/-- Pending scripts stay in the order of the names. -/
theorem pendingIn_sublist (migrations : Migrations) (rows : List Nat) (conditions : Conditions)
    : (pendingIn migrations rows conditions).Sublist migrations.files :=
  List.filter_sublist

/-- Applied numbers are those of recorded versions. -/
theorem mem_getAppliedMigrations {number : ℚ}
    : number ∈ getAppliedMigrations conditions rows
      ↔ conditions.unreadable = false ∧ ∃ row ∈ rows, double row = number := by
  unfold getAppliedMigrations
  split <;> simp_all

/-- Scripts are pending unless the table has a row that the driver gives their number for. -/
theorem mem_pendingIn
    : file ∈ pendingIn migrations rows conditions
      ↔ file ∈ migrations.files
        ∧ ¬ (conditions.unreadable = false ∧ ∃ row ∈ rows, double row = double (version file)) := by
  rw [pendingIn, getPendingMigrations, List.mem_filter]
  refine and_congr_right fun member => ?_
  rw [parsedVersion_of_mem member, ← mem_getAppliedMigrations]
  simp

/-- With the table at hand, a recorded version is not pending. -/
theorem not_mem_of_pending (readable : conditions.unreadable = false)
    (pending : file ∈ pendingIn migrations rows conditions)
    : version file ∉ rows :=
  fun recorded => (mem_pendingIn.mp pending).2 ⟨readable, version file, recorded, rfl⟩

/-- Without two versions for one number, every version that is not recorded is pending. -/
theorem pending_of_not_mem (ordered : InVersionOrder migrations)
    (known : ∀ row ∈ rows, row ∈ migrations.files.map version)
    (member : file ∈ migrations.files) (new : version file ∉ rows)
    : file ∈ pendingIn migrations rows conditions := by
  refine mem_pendingIn.mpr ⟨member, ?_⟩
  rintro ⟨_, row, recorded, number⟩
  obtain ⟨other, other_member, rfl⟩ := List.mem_map.mp (known row recorded)
  have parsed : parsedVersion file = parsedVersion other := by
    rw [parsedVersion_of_mem member, parsedVersion_of_mem other_member, number]
  have apart : (migrations.files.map parsedVersion).Nodup :=
    List.pairwise_map.mpr (ordered.imp fun both => both.2)
  obtain rfl := List.inj_on_of_nodup_map apart member other_member parsed
  exact new recorded

/-- In version order, the versions that are not recorded are those of the pending scripts. -/
theorem mem_versions_pendingIn (ordered : InVersionOrder migrations)
    (known : ∀ row ∈ rows, row ∈ migrations.files.map version) {value : Nat} (new : value ∉ rows)
    : value ∈ (pendingIn migrations rows conditions).map version
      ↔ value ∈ migrations.files.map version := by
  constructor
  · exact fun pending => ((pendingIn_sublist migrations rows conditions).map version).subset pending
  · intro some_file
    obtain ⟨file, member, rfl⟩ := List.mem_map.mp some_file
    exact List.mem_map_of_mem (pending_of_not_mem ordered known member new)

/-- In version order, pending scripts have increasing versions. -/
theorem pairwise_pendingIn (ordered : InVersionOrder migrations)
    : ((pendingIn migrations rows conditions).map version).Pairwise (· < ·) :=
  List.pairwise_map.mpr
    ((ordered.sublist (pendingIn_sublist migrations rows conditions)).imp fun both => both.1)

/-- The versions of the pending scripts are those that the run applies, and what a failure leaves.
-/
theorem versions_pendingIn (migrations : Migrations) (rows : List Nat) (conditions : Conditions)
    : ((migrate migrations rows conditions).failed = none
        ∧ appliedIn migrations rows conditions
          = (pendingIn migrations rows conditions).map version)
      ∨ ∃ stop back,
          (migrate migrations rows conditions).failed = some stop
          ∧ (pendingIn migrations rows conditions).map version
            = appliedIn migrations rows conditions ++ version stop :: back := by
  rcases takeInOrder_split (runMigration conditions) rows (pendingIn migrations rows conditions)
    with ⟨none_failed, all_done⟩ | ⟨stop, back, failed, split⟩
  · exact .inl ⟨none_failed, congrArg (List.map version) all_done⟩
  · refine .inr ⟨stop, back.map version, failed, ?_⟩
    rw [split, List.map_append, List.map_cons]
    rfl

/-- In version order, every run resumes. -/
theorem resumes_of_inVersionOrder (ordered : InVersionOrder migrations) (nodup : rows.Nodup)
    (known : ∀ row ∈ rows, row ∈ migrations.files.map version)
    : Resumes migrations rows conditions := by
  have increasing := @pairwise_pendingIn migrations conditions rows ordered
  have pending_iff (value : Nat) (new : value ∉ rows) :=
    @mem_versions_pendingIn migrations conditions rows ordered known value new
  rcases versions_pendingIn migrations rows conditions
    with ⟨none_failed, applied⟩ | ⟨stop, back, failed, parts⟩
  · refine ⟨applied ▸ increasing, fun value => ?_, fun _ file member => ?_⟩
    · constructor
      · intro done
        have new := not_mem_of_mem_appliedIn nodup done
        refine ⟨(pending_iff value new).mp (applied ▸ done), new, fun stop stopped => ?_⟩
        rw [none_failed] at stopped
        cases stopped
      · rintro ⟨some_file, new, _⟩
        exact applied ▸ (pending_iff value new).mpr some_file
    · rw [rowsAfter_eq, List.mem_append]
      by_cases recorded : version file ∈ rows
      · exact .inl recorded
      · right
        rw [applied, pending_iff _ recorded]
        exact List.mem_map_of_mem member
  · rw [parts] at increasing
    refine ⟨(List.pairwise_append.mp increasing).1, fun value => ?_, fun none_failed => ?_⟩
    · -- what is applied is what is pending and below the script that failed
      have front := mem_front_iff increasing value
      rw [← parts] at front
      constructor
      · intro done
        have new := not_mem_of_mem_appliedIn nodup done
        obtain ⟨pending, below⟩ := front.mp done
        refine ⟨(pending_iff value new).mp pending, new, fun other stopped => ?_⟩
        rw [failed] at stopped
        exact Option.some.inj stopped ▸ below
      · rintro ⟨some_file, new, below⟩
        exact front.mpr ⟨(pending_iff value new).mpr some_file, below stop failed⟩
    · rw [failed] at none_failed
      cases none_failed

end Run

-----------------------------------------------------------------------------------------
-- Sequences of runs
-----------------------------------------------------------------------------------------

section Sequence

variable {migrations : Migrations} {rows : List Nat}

/-- What the runs apply comes to rows of the table, and so has nothing twice; induction on the runs.
-/
theorem nodup_appliedBy (nodup : rows.Nodup) (runs : List Conditions)
    : (rows ++ appliedBy migrations rows runs).Nodup := by
  induction runs generalizing rows with
  | nil => exact (List.append_nil rows).symm ▸ nodup
  | cons conditions rest ih =>
      have later := ih (@nodup_rowsAfter migrations conditions rows nodup)
      rw [rowsAfter_eq, List.append_assoc, ← rowsAfter_eq] at later
      exact later

/-- In version order, every sequence of runs resumes at each run. -/
theorem migrates_of_inVersionOrder (ordered : InVersionOrder migrations) : Migrates migrations := by
  intro runs
  constructor
  · have resumes (rows : List Nat) (conditions : Conditions)
        (start : rows.Nodup ∧ ∀ row ∈ rows, row ∈ migrations.files.map version)
        : Resumes migrations rows conditions :=
      resumes_of_inVersionOrder ordered start.1 start.2
    refine Along.of_invariant resumes (fun rows conditions start => ?_)
      ⟨List.nodup_nil, fun _ none => nomatch none⟩ runs
    refine ⟨nodup_rowsAfter start.1, fun row after => ?_⟩
    rw [rowsAfter_eq] at after
    rcases List.mem_append.mp after with before | applied
    · exact start.2 row before
    · exact (((resumes rows conditions start).exact row).mp applied).1
  · exact @nodup_appliedBy migrations [] List.nodup_nil runs

/-- Where the scripts are parted, none of them is on both sides. -/
theorem apart_of_split {front back : List (List Nat)} {file : List Nat}
    (split : migrations.files = front ++ file :: back)
    : file ∉ front ∧ file ∉ back ∧ ∀ early ∈ front, early ∉ back := by
  obtain ⟨_, behind, before⟩ := List.nodup_append.mp (split ▸ nodup_files migrations)
  exact ⟨fun early => before file early file List.mem_cons_self rfl,
    (List.nodup_cons.mp behind).1,
    fun early member later => before early member early (List.mem_cons_of_mem file later) rfl⟩

theorem mem_files_of_split {front back : List (List Nat)} {file : List Nat}
    (split : migrations.files = front ++ file :: back)
    : file ∈ migrations.files := by
  rw [split]
  exact List.mem_append_right front List.mem_cons_self

/-- A script whose version is that of one of the scripts in front is one of them. -/
theorem mem_front_of_version {front back : List (List Nat)} {file : List Nat}
    (split : migrations.files = front ++ back) (member : file ∈ migrations.files)
    (recorded : version file ∈ front.map version)
    : file ∈ front := by
  obtain ⟨early, early_member, same⟩ := List.mem_map.mp recorded
  have early_file : early ∈ migrations.files := by
    rw [split]
    exact List.mem_append_left back early_member
  exact version_injective early_file member same ▸ early_member

/-- A run that only one script fails in, from a fresh database, stops there. -/
theorem migrate_of_split {front back : List (List Nat)} {file : List Nat}
    (split : migrations.files = front ++ file :: back)
    : (migrate migrations [] ⟨false, (· == file)⟩).done = front
      ∧ (migrate migrations [] ⟨false, (· == file)⟩).failed = some file := by
  have pending : getPendingMigrations migrations (getAppliedMigrations ⟨false, (· == file)⟩ [])
      = migrations.files :=
    List.filter_eq_self.mpr fun _ _ => by simp [getAppliedMigrations]
  rw [migrate, pending]
  rcases takeInOrder_split (runMigration ⟨false, (· == file)⟩) [] migrations.files
    with ⟨_, all_done⟩ | ⟨stop, rest, failed, stopped⟩
  · obtain ⟨before, after, taken⟩ := taken_of_mem_done (all_done.symm ▸ mem_files_of_split split)
    rw [runMigration_refuses.mpr (.inl (beq_self_eq_true file))] at taken
    cases taken
  · have same : stop = file :=
      expected_of_failed (· = file) (runMigration_logs _)
        (fun _ other refused =>
          (runMigration_refuses.mp refused).imp_left fun fails => eq_of_beq fails)
        (fun _ _ => List.not_mem_nil) (distinct_files migrations) failed
    subst same
    obtain ⟨not_before, not_behind, _⟩ := apart_of_split stopped
    refine ⟨?_, failed⟩
    exact ((List.append_cons_inj_of_notMem not_before not_behind).mp (stopped.symm.trans split)).1

/-- A run that no script fails in by itself, with the table at hand, meets no failure. -/
theorem migrate_of_none (migrations : Migrations) (rows : List Nat)
    : (migrate migrations rows ⟨false, fun _ => false⟩).failed = none
      ∧ (migrate migrations rows ⟨false, fun _ => false⟩).done
        = pendingIn migrations rows ⟨false, fun _ => false⟩ := by
  rcases takeInOrder_split (runMigration ⟨false, fun _ => false⟩) rows
      (pendingIn migrations rows ⟨false, fun _ => false⟩)
    with all_done | ⟨stop, _, failed, _⟩
  · exact all_done
  · have unexpected : False :=
      expected_of_failed (fun _ => False) (runMigration_logs _)
        (fun _ _ refused => (runMigration_refuses.mp refused).imp_left nofun)
        (fun _ pending => not_mem_of_pending rfl pending)
        ((distinct_files migrations).sublist (pendingIn_sublist _ _ _)) failed
    exact unexpected.elim

/-- Runs that resume, whatever fails, take the scripts in version order. -/
theorem lt_of_migrates (migrates : Migrates migrations) {front back : List (List Nat)}
    {file other : List Nat} (split : migrations.files = front ++ file :: back)
    (behind : other ∈ back)
    : version file < version other := by
  obtain ⟨done, failed⟩ := migrate_of_split split
  obtain ⟨⟨resumes, _⟩, _⟩ := migrates [⟨false, (· == file)⟩]
  obtain ⟨_, not_behind, apart⟩ := apart_of_split split
  have other_member : other ∈ migrations.files := by
    rw [split]
    exact List.mem_append_right front (List.mem_cons_of_mem file behind)
  by_contra not_less
  have different : version other ≠ version file := by
    intro same
    obtain rfl := version_injective other_member (mem_files_of_split split) same
    exact not_behind behind
  have below : version other < version file := Nat.lt_of_le_of_ne (Nat.not_lt.mp not_less) different
  -- the run stopped at the file, so it has to have applied the other one before
  have applied : version other ∈ appliedIn migrations [] ⟨false, (· == file)⟩ := by
    refine (resumes.exact _).mpr ⟨List.mem_map_of_mem other_member, List.not_mem_nil, ?_⟩
    intro stop stopped
    rw [failed] at stopped
    exact Option.some.inj stopped ▸ below
  rw [appliedIn, done] at applied
  exact apart other (mem_front_of_version split other_member applied) behind

/-- Runs that resume, whatever fails, tell the versions apart. -/
theorem parsedVersion_ne_of_migrates (migrates : Migrates migrations)
    {front back : List (List Nat)} {file other : List Nat}
    (split : migrations.files = front ++ file :: back) (behind : other ∈ back)
    : parsedVersion file ≠ parsedVersion other := by
  intro same
  obtain ⟨middle, rest, rfl⟩ := List.append_of_mem behind
  have parts : migrations.files = (front ++ file :: middle) ++ other :: rest := by
    rw [split, List.append_assoc, List.cons_append]
  have other_member := mem_files_of_split parts
  rw [parsedVersion_of_mem (mem_files_of_split split), parsedVersion_of_mem other_member] at same
  obtain ⟨done, failed⟩ := migrate_of_split parts
  -- the first run stops at the other file, the second one meets no failure
  obtain ⟨⟨_, resumes, _⟩, _⟩ := migrates [⟨false, (· == other)⟩, ⟨false, fun _ => false⟩]
  have rows : rowsAfter migrations [] ⟨false, (· == other)⟩
      = (front ++ file :: middle).map version := by
    rw [rowsAfter_eq, appliedIn, done, List.nil_append]
  rw [rows] at resumes
  obtain ⟨no_failure, all_done⟩ :=
    migrate_of_none migrations ((front ++ file :: middle).map version)
  have recorded := resumes.complete no_failure other other_member
  rw [rowsAfter_eq, appliedIn, all_done, List.mem_append] at recorded
  rcases recorded with before | pending
  · exact (apart_of_split parts).1 (mem_front_of_version parts other_member before)
  · obtain ⟨late, late_pending, late_version⟩ := List.mem_map.mp pending
    obtain rfl := version_injective (mem_pendingIn.mp late_pending).1 other_member late_version
    refine (mem_pendingIn.mp late_pending).2 ⟨rfl, version file, ?_, Option.some.inj same⟩
    exact List.mem_map_of_mem (List.mem_append_right front List.mem_cons_self)

/-- Every sequence of runs from a fresh database applies the versions that are not recorded, in
increasing order, up to the first failure, none of them twice, and records all of them in a run
without failure, if and only if the names are in version order and tell the versions apart.
-/
theorem migrates_iff (migrations : Migrations)
    : Migrates migrations ↔ InVersionOrder migrations := by
  constructor
  · exact fun migrates => pairwise_of_split fun split other behind =>
      ⟨lt_of_migrates migrates split behind, parsedVersion_ne_of_migrates migrates split behind⟩
  · exact migrates_of_inVersionOrder

end Sequence

-----------------------------------------------------------------------------------------
-- Numbers of one width
-----------------------------------------------------------------------------------------

theorem comesBefore_cons {unit other : Nat} {units others : List Nat}
    : comesBefore (unit :: units) (other :: others) = true
      ↔ unit < other ∨ unit = other ∧ comesBefore units others = true := by
  rw [comesBefore, Bool.or_eq_true, Bool.and_eq_true, decide_eq_true_eq, decide_eq_true_eq]

theorem comesBefore_trans (file other third : List Nat) (first : comesBefore file other = true)
    (second : comesBefore other third = true)
    : comesBefore file third = true := by
  induction file generalizing other third with
  | nil => rfl
  | cons unit units ih =>
      cases other with
      | nil => cases first
      | cons middle middles =>
          cases third with
          | nil => cases second
          | cons last lasts =>
              rw [comesBefore_cons] at *
              rcases first with less | ⟨rfl, first⟩
              · rcases second with later | ⟨rfl, _⟩
                · exact .inl (less.trans later)
                · exact .inl less
              · exact second.imp_right fun both => ⟨both.1, ih middles lasts first both.2⟩

theorem comesBefore_total (file other : List Nat)
    : (comesBefore file other || comesBefore other file) = true := by
  rw [Bool.or_eq_true]
  induction file generalizing other with
  | nil => exact .inl rfl
  | cons unit units ih =>
      cases other with
      | nil => exact .inr rfl
      | cons middle middles =>
          rw [comesBefore_cons, comesBefore_cons]
          rcases Nat.lt_trichotomy unit middle with less | rfl | more
          · exact .inl (.inl less)
          · exact (ih middles).imp (fun before => .inr ⟨rfl, before⟩)
              (fun before => .inr ⟨rfl, before⟩)
          · exact .inr (.inl more)

/-- The scripts are taken in the order of their names. -/
theorem sorted_files (migrations : Migrations)
    : migrations.files.Pairwise fun file other => comesBefore file other = true :=
  List.pairwise_mergeSort comesBefore_trans comesBefore_total _

/-- What a higher start is ahead, digits of one number do not make up for. -/
theorem foldl_digits_lt {digits others : List Nat} (width : digits.length = others.length)
    (all_digits : ∀ unit ∈ digits, isDigitUnit unit = true) {start higher : Nat}
    (less : start < higher)
    : digits.foldl (fun value unit => value * 10 + (unit - 0x30)) start
      < others.foldl (fun value unit => value * 10 + (unit - 0x30)) higher := by
  induction digits generalizing others start higher with
  | nil =>
      rw [List.length_eq_zero_iff.mp width.symm]
      exact less
  | cons digit digits ih =>
      cases others with
      | nil => cases width
      | cons other others =>
          obtain ⟨is_digit, all_digits⟩ := List.forall_mem_cons.mp all_digits
          rw [isDigitUnit, Bool.and_eq_true, decide_eq_true_eq, decide_eq_true_eq] at is_digit
          have still : start * 10 + (digit - 0x30) < higher * 10 + (other - 0x30) := by omega
          exact ih (Nat.succ.inj width) all_digits still

/-- Of digits of one number, those that come first among names write the smaller number. -/
theorem foldl_digits_le {digits others rest other_rest : List Nat}
    (width : digits.length = others.length)
    (all_digits : ∀ unit ∈ digits, isDigitUnit unit = true)
    (other_digits : ∀ unit ∈ others, isDigitUnit unit = true) (start : Nat)
    (before : comesBefore (digits ++ rest) (others ++ other_rest) = true)
    : digits.foldl (fun value unit => value * 10 + (unit - 0x30)) start
      ≤ others.foldl (fun value unit => value * 10 + (unit - 0x30)) start := by
  induction digits generalizing others start with
  | nil => rw [List.length_eq_zero_iff.mp width.symm]
  | cons digit digits ih =>
      cases others with
      | nil => cases width
      | cons other others =>
          obtain ⟨is_digit, later_digits⟩ := List.forall_mem_cons.mp all_digits
          obtain ⟨is_other, later_others⟩ := List.forall_mem_cons.mp other_digits
          rw [isDigitUnit, Bool.and_eq_true, decide_eq_true_eq, decide_eq_true_eq]
            at is_digit is_other
          rcases comesBefore_cons.mp before with less | ⟨rfl, later⟩
          · have ahead : start * 10 + (digit - 0x30) < start * 10 + (other - 0x30) := by omega
            exact (foldl_digits_lt (Nat.succ.inj width) later_digits ahead).le
          · exact ih (Nat.succ.inj width) later_digits later_others _ later

/-- Files whose numbers have one width, and are not rounded, are taken in version order. -/
theorem migrates_of_width {migrations : Migrations} (width : Nat)
    (wide : ∀ file ∈ migrations.files, (numberText file).length = width)
    (small : ∀ file ∈ migrations.files, version file < 2 ^ 53)
    : Migrates migrations := by
  refine migrates_of_inVersionOrder ?_
  refine ((sorted_files migrations).and (distinct_files migrations)).imp_of_mem
    fun {file other} file_member other_member both => ?_
  have exact_double {file : List Nat} (member : file ∈ migrations.files)
      : parsedVersion file = some (version file : ℚ) := by
    have fits : |(version file : ℤ)| < 2 ^ 53 := by
      rw [Nat.abs_cast]
      exact_mod_cast small file member
    have rounded := @roundTo_intCast ℚ _ _ _ _ 53 (version file) fits
    rw [parsedVersion_of_mem member, double]
    exact_mod_cast congrArg some rounded
  constructor
  · refine Nat.lt_of_le_of_ne ?_ both.2
    have same_width := (wide file file_member).trans (wide other other_member).symm
    have before := both.1
    obtain ⟨entry, sql⟩ := mem_files.mp file_member
    obtain ⟨other_entry, other_sql⟩ := mem_files.mp other_member
    obtain ⟨digits, name, _, all_digits, rfl⟩ := migrations.named file entry sql
    obtain ⟨others, other_name, _, other_digits, rfl⟩ :=
      migrations.named other other_entry other_sql
    rw [List.append_assoc, List.cons_append, List.append_assoc, List.cons_append] at *
    rw [numberText_of_named all_digits, numberText_of_named other_digits] at same_width
    rw [version, version, numberText_of_named all_digits, numberText_of_named other_digits]
    exact foldl_digits_le same_width all_digits other_digits 0 before
  · rw [exact_double file_member, exact_double other_member]
    exact fun same => both.2 (Nat.cast_injective (Option.some.inj same))

/-- The directory of the repository. -/
def repositoryMigrations : Migrations where
  entries := ["001_initial_schema.sql", "002_performance_indexes.sql", "003_crawl_audit.sql",
    "migrate.ts"].map codeUnits
  named := by
    refine List.forall_mem_cons.mpr ⟨fun _ => ?_, List.forall_mem_cons.mpr ⟨fun _ => ?_,
      List.forall_mem_cons.mpr ⟨fun _ => ?_, List.forall_mem_singleton.mpr fun sql => ?_⟩⟩⟩
    · exact ⟨codeUnits "001", codeUnits "initial_schema", by decide, by decide, by decide⟩
    · exact ⟨codeUnits "002", codeUnits "performance_indexes", by decide, by decide, by decide⟩
    · exact ⟨codeUnits "003", codeUnits "crawl_audit", by decide, by decide, by decide⟩
    · exact absurd sql (by decide)
  distinct := by decide +kernel

/-- The migrations of the repository run in version order, and resume. -/
theorem migrates_repositoryMigrations : Migrates repositoryMigrations := by
  have padded
      : ∀ file ∈ repositoryMigrations.entries,
          isSql file = true → (numberText file).length = 3 ∧ version file < 2 ^ 53 := by
    decide +kernel
  refine migrates_of_width 3 (fun file member => ?_) (fun file member => ?_)
  · exact (padded file (mem_files.mp member).1 (mem_files.mp member).2).1
  · exact (padded file (mem_files.mp member).1 (mem_files.mp member).2).2

/-- Two scripts whose numbers differ in width. -/
def unpaddedMigrations : Migrations where
  entries := ["10_b.sql", "2_a.sql"].map codeUnits
  named := by
    refine List.forall_mem_cons.mpr ⟨fun _ => ?_, List.forall_mem_singleton.mpr fun _ => ?_⟩
    · exact ⟨codeUnits "10", codeUnits "b", by decide, by decide, by decide⟩
    · exact ⟨codeUnits "2", codeUnits "a", by decide, by decide, by decide⟩
  distinct := by decide +kernel

/-- Version 10 is applied before version 2. -/
theorem not_migrates : ¬ ∀ migrations, Migrates migrations := by
  intro claim
  have files : unpaddedMigrations.files = ["10_b.sql", "2_a.sql"].map codeUnits :=
    List.mergeSort_of_pairwise (by decide +kernel)
  have less := @lt_of_migrates unpaddedMigrations (claim unpaddedMigrations) [] _ _
    (codeUnits "2_a.sql") files List.mem_cons_self
  exact absurd less (by decide +kernel)

end WebIndexer.Store
