import Mathlib.Algebra.Order.Round
import Mathlib.Tactic.NormNum
import WebIndexer.Crawl.Loop
import WebIndexer.Library.Rounding
import WebIndexer.Library.Words

/-! The disk check of `src/queue.ts`: what `checkDiskSpace` reads in the output of `df -m`, and
the pause that the timer makes of it. A field that is zero counts as one that cannot be read,
and for the free space that is as good as plenty.
-/

namespace WebIndexer.Crawl

open WebIndexer.Config
open WebIndexer.Library
open WebIndexer.Runtime

/-- `DiskSpace`, with sizes in megabytes. -/
structure DiskSpace where
  avail : Int
  total : Int
  used : Int
  usagePct : Int
  deriving DecidableEq, Repr

/-- The value of a digit; other characters are no digits in any base. -/
def digitValue (char : Char) : Nat :=
  if char.isDigit then
    char.toNat - '0'.toNat
  else if 'a' ≤ char.toLower ∧ char.toLower ≤ 'f' then
    char.toLower.toNat - 'a'.toNat + 10
  else
    16

/-- The number that the leading digits of a text write in a base. -/
def leadingNumber (base : Nat) (text : List Char) : Option Int :=
  match text.takeWhile fun char => digitValue char < base with
  | [] => none
  | digits => some (digits.foldl (fun number digit => number * base + digitValue digit) 0 : Nat)

/-- `parseInt(text)`, with nothing for `NaN`. -/
def parseField (text : List Char) : Option Int :=
  match text.dropWhile isSpace with
  | '-' :: body => (magnitude body).map Neg.neg
  | '+' :: body => magnitude body
  | body => magnitude body
where
  magnitude : List Char → Option Int
    | '0' :: 'x' :: body | '0' :: 'X' :: body => leadingNumber 16 body
    | body => leadingNumber 10 body

/-- `value || fallback`, for a number that may be `NaN`. -/
def orElse (value : Option Int) (fallback : Int) : Int :=
  (value.filter (· ≠ 0)).getD fallback

/-- `Math.round`. -/
def mathRound (x : ℚ) : Int := ⌊x + 1 / 2⌋

/-- The fields of the second line of an output. A trimmed line has no blank ends, so that what is
between its runs of white space are its words.
-/
def dfFields (out : String) : Option (List (List Char)) :=
  match splitOn '\n' (trim out.toList) with
  | _ :: line :: _ => some (wordsOf isSpace (trim line))
  | _ => none

/-- `checkDiskSpace`, with the output of the command if it succeeds. The quotient and its
hundredfold are taken exactly; as doubles they come to the same pause, by `percent_doubles_iff`.
-/
def checkDiskSpace (out : Option String) : DiskSpace :=
  match out.bind dfFields with
  | some parts =>
      let total := orElse (parts[1]?.bind parseField) 99999
      let used := orElse (parts[2]?.bind parseField) 0
      let avail := orElse (parts[3]?.bind parseField) 99999
      {
        avail := avail
        total := total
        used := used
        usagePct := if 0 < total then mathRound ((used / total : ℚ) * 100) else 0
      }
  | none => ⟨9999, 9999, 0, 0⟩

/-- What the timer takes for a full disk. -/
def DiskSpace.isFull (disk : DiskSpace) : Bool :=
  disk.avail < minDiskMb ∨ diskMaxUsagePct ≤ disk.usagePct

/-- The step of the crawl in which the timer checks the disk. -/
def diskCheck (out : Option String) : Label :=
  .diskTimer (checkDiskSpace out).avail.toNat (checkDiskSpace out).usagePct.toNat

example
    : checkDiskSpace (some ("Filesystem 1M-blocks Used Available Use% Mounted on\n"
        ++ "/dev/sda1     10000 8100      1900  81% /\n"))
      = ⟨1900, 10000, 8100, 81⟩ := by
  decide +kernel

-----------------------------------------------------------------------------------------
-- The pause
-----------------------------------------------------------------------------------------

/-- An output of `df -m` whose second line has numbers for the total, the used and the available
space, the total of which is positive.
-/
structure DfReport where
  out : String
  total : Int
  used : Int
  avail : Int
  reads
    : ∃ parts,
        dfFields out = some parts
        ∧ parts[1]?.bind parseField = some total
        ∧ parts[2]?.bind parseField = some used
        ∧ parts[3]?.bind parseField = some avail
  positive : 0 < total

/-- The share of the space that is used, in per cent. -/
def DfReport.usage (report : DfReport) : Int :=
  round (100 * report.used / report.total : ℚ)

/-- The disk is full: too little space is available, or too much is used. -/
def DfReport.Full (report : DfReport) : Prop :=
  report.avail < minDiskMb ∨ diskMaxUsagePct ≤ report.usage

/-- The check sets the flag exactly when the disk is full. -/
def ChecksDisk (env : Env) (state : State) (report : DfReport) : Prop :=
  ∃ next,
    state.step env (diskCheck (some report.out)) = some next
    ∧ (next.shared.crawl.diskPaused = true ↔ report.Full)

/-- What is read of a report. -/
theorem checkDiskSpace_report (report : DfReport)
    : (checkDiskSpace (some report.out)).avail
        = (if report.avail = 0 then 99999 else report.avail)
      ∧ (checkDiskSpace (some report.out)).usagePct = report.usage := by
  obtain ⟨parts, fields, total, used, avail⟩ := report.reads
  have positive := report.positive
  have kept (value fallback : Int)
      : orElse (some value) fallback = if value = 0 then fallback else value := by
    by_cases zero : value = 0 <;> simp [orElse, Option.filter, zero]
  have used_kept : orElse (some report.used) 0 = report.used := by
    rw [kept]
    split
    · rename_i zero
      exact zero.symm
    · rfl
  have total_kept : orElse (some report.total) 99999 = report.total := by
    rw [kept, if_neg positive.ne']
  unfold checkDiskSpace
  simp only [Option.bind_some, fields, total, used, avail, used_kept, total_kept, positive, if_true]
  refine ⟨kept _ _, ?_⟩
  rw [DfReport.usage, round_eq, mathRound]
  congr 2
  ring

/-- While nothing runs, the timer sets the flag to what the check makes of the output. -/
theorem step_diskCheck (env : Env) {state : State} (out : Option String)
    (idle : state.running = none)
    : ∃ next,
        state.step env (diskCheck out) = some next
        ∧ next.shared.crawl.diskPaused = (checkDiskSpace out).isFull := by
  unfold State.step diskCheck
  simp only [idle]
  refine ⟨_, rfl, decide_eq_decide.mpr ?_⟩
  unfold minDiskMb diskMaxUsagePct
  omega

/-- The check sets the flag exactly when the disk is full if and only if the available space is
not printed as zero, or the used one comes to the limit in per cent.
-/
theorem checksDisk_iff (env : Env) {state : State} (idle : state.running = none)
    (report : DfReport)
    : ChecksDisk env state report
      ↔ report.avail ≠ 0 ∨ (diskMaxUsagePct : Int) ≤ report.usage := by
  obtain ⟨next, taken, flag⟩ := step_diskCheck env (some report.out) idle
  obtain ⟨avail, usage⟩ := checkDiskSpace_report report
  have flag_iff : next.shared.crawl.diskPaused = true
      ↔ (if report.avail = 0 then 99999 else report.avail) < (minDiskMb : Int)
        ∨ (diskMaxUsagePct : Int) ≤ report.usage := by
    rw [flag, DiskSpace.isFull, decide_eq_true_iff, avail, usage]
  have checks : ChecksDisk env state report
      ↔ (next.shared.crawl.diskPaused = true ↔ report.Full) := by
    constructor
    · rintro ⟨other, again, decides⟩
      obtain rfl := Option.some.inj (taken.symm.trans again)
      exact decides
    · exact fun decides => ⟨next, taken, decides⟩
  rw [checks, flag_iff, DfReport.Full]
  unfold minDiskMb diskMaxUsagePct
  split <;> omega

-----------------------------------------------------------------------------------------
-- Doubles
-----------------------------------------------------------------------------------------

/-- At the limit itself both roundings fall on doubles that make up for each other. -/
theorem double_limit : double (double (159 / 200) * 100) = 159 / 2 := by
  have share : double (159 / 200) = 7160723407519089 / 9007199254740992 := by
    have place : lastPlace 53 (159 / 200 : ℚ) = 1 / 9007199254740992 := by
      rw [@lastPlace_eq ℚ _ _ _ _ 53 (159 / 200) (-1) (by norm_num) (by norm_num)]
      norm_num
    rw [double, roundTo, place]
    norm_num [roundEven]
  have place : lastPlace 53 (7160723407519089 / 9007199254740992 * 100 : ℚ)
      = 1 / 70368744177664 := by
    rw [@lastPlace_eq ℚ _ _ _ _ 53 (7160723407519089 / 9007199254740992 * 100) 6
      (by norm_num) (by norm_num)]
    norm_num
  rw [share, double, roundTo, place]
  norm_num [roundEven]

/-- A share is rounded to the limit in per cent, or more, when it comes to a half per cent less.
-/
theorem limit_le_mathRound_iff (percent : ℚ)
    : (diskMaxUsagePct : Int) ≤ mathRound percent ↔ 159 / 2 ≤ percent := by
  rw [mathRound, Int.le_floor, diskMaxUsagePct]
  constructor <;> intro bound
  · norm_num at bound
    linarith
  · norm_num
    linarith

/-- A share that is below the limit by more than the two roundings make up for. -/
theorem double_percent_lt {share : ℚ} (below : share ≤ 159 / 200 - 1 / (2 ^ 44 * 200))
    : double (double share * 100) < 159 / 2 := by
  have first := @roundTo_le ℚ _ _ _ _ 53 _ _ below (by norm_num)
  have second := @roundTo_le ℚ _ _ _ _ 53 (double share * 100)
    ((159 / 200 - 1 / (2 ^ 44 * 200)) * (1 + 1 / 2 ^ 53) * 100)
    (by unfold double; linarith) (by norm_num)
  exact second.trans_lt (by norm_num)

/-- A share that is as far above the limit. -/
theorem le_double_percent {share : ℚ} (above : 159 / 200 + 1 / (200 * 2 ^ 44) ≤ share)
    : 159 / 2 ≤ double (double share * 100) := by
  have first := @le_roundTo ℚ _ _ _ _ 53 _ _ above (by norm_num)
  have second := @le_roundTo ℚ _ _ _ _ 53 (double share * 100)
    ((159 / 200 + 1 / (200 * 2 ^ 44)) * (1 - 1 / 2 ^ 53) * 100)
    (by unfold double; linarith) (by norm_num)
  exact le_trans (by norm_num) second

/-- Up to sixteen exabytes in megabytes, the share that doubles come to reaches the limit exactly
when the share itself does.
-/
theorem percent_doubles_iff {used total : Int} (positive : 0 < total) (small : total ≤ 2 ^ 44)
    : (diskMaxUsagePct : Int) ≤ mathRound (double (double (used / total) * 100))
      ↔ (diskMaxUsagePct : Int) ≤ mathRound ((used / total : ℚ) * 100) := by
  have positive' : (0 : ℚ) < total := by exact_mod_cast positive
  have small' : (total : ℚ) ≤ 2 ^ 44 := by exact_mod_cast small
  rw [limit_le_mathRound_iff, limit_le_mathRound_iff]
  rcases lt_trichotomy (used * 200) (159 * total) with below | limit | above
  · have share : (used / total : ℚ) ≤ 159 / 200 - 1 / (2 ^ 44 * 200) := by
      have gap := @fraction_gap ℚ _ _ _ used total 159 200 positive (by norm_num) below
      have part : 1 / (2 ^ 44 * 200 : ℚ) ≤ 1 / (total * 200) := by gcongr
      push_cast at gap
      linarith
    refine iff_of_false (not_le.mpr (double_percent_lt share)) (not_le.mpr ?_)
    linarith
  · have share : (used / total : ℚ) = 159 / 200 := by
      rw [div_eq_div_iff positive'.ne' (by norm_num)]
      exact_mod_cast limit
    rw [share, double_limit]
    exact iff_of_true (le_refl _) (by norm_num)
  · have share : 159 / 200 + 1 / (200 * 2 ^ 44) ≤ (used / total : ℚ) := by
      have gap := @fraction_gap ℚ _ _ _ 159 200 used total (by norm_num) positive above
      have part : 1 / (200 * 2 ^ 44 : ℚ) ≤ 1 / (200 * total) := by gcongr
      push_cast at gap
      linarith
    refine iff_of_true (le_double_percent share) ?_
    linarith

-----------------------------------------------------------------------------------------
-- Two disks
-----------------------------------------------------------------------------------------

/-- A disk of which a fifth is reserved, and the rest is used up. -/
def reservedDisk : DfReport where
  out := "Filesystem 1M-blocks Used Available Use% Mounted on\n"
    ++ "/dev/sda1     10000 7900         0 100% /\n"
  total := 10000
  used := 7900
  avail := 0
  reads := ⟨["/dev/sda1", "10000", "7900", "0", "100%", "/"].map String.toList, by decide +kernel,
    by decide +kernel, by decide +kernel, by decide +kernel⟩
  positive := by decide

/-- The same disk with some space left. -/
def nearlyFullDisk : DfReport where
  out := "Filesystem 1M-blocks Used Available Use% Mounted on\n"
    ++ "/dev/sda1     10000 7700       200  98% /\n"
  total := 10000
  used := 7700
  avail := 200
  reads := ⟨["/dev/sda1", "10000", "7700", "200", "98%", "/"].map String.toList, by decide +kernel,
    by decide +kernel, by decide +kernel, by decide +kernel⟩
  positive := by decide

/-- A crawl at rest. -/
def restingCrawl : State := { State.plainCrawl [] with running := none }

/-- Some megabytes that are left are too few, and pause the crawl. -/
theorem checksDisk_of_nearly_full : ChecksDisk State.plainEnv restingCrawl nearlyFullDisk :=
  (checksDisk_iff State.plainEnv rfl nearlyFullDisk).mpr (.inl (by decide))

/-- None that are left are taken for plenty. -/
theorem checksDisk_fails_for_full_disk
    : ¬ ∀ (env : Env) (state : State),
        state.running = none → ∀ report : DfReport, ChecksDisk env state report := by
  intro claim
  obtain ⟨next, taken, flag⟩ := claim State.plainEnv restingCrawl rfl reservedDisk
  obtain ⟨other, again, reads⟩ :=
    step_diskCheck State.plainEnv (some reservedDisk.out) (rfl : restingCrawl.running = none)
  obtain rfl := Option.some.inj (taken.symm.trans again)
  have full : next.shared.crawl.diskPaused = true := flag.mpr (.inl (by decide))
  rw [reads] at full
  exact absurd full (by decide +kernel)

end WebIndexer.Crawl
