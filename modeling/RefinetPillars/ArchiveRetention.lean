import RefinetPillars.ArchiveTotals
import RefinetPillars.ServingCounters

/-!
# How old metrics are when they are archived

A year has thirteen accounting months of 28 days, and its last month takes the
days that are left.  Months are archived by their numbers; in days, no metrics
of the last 365 days are in the archive, and those of 395 days ago are.
-/

namespace RefinetPillars

namespace ArchiveRetention

open ArchiveDatabase HexText ServingCounters
open StoreGrowth (LocalDay AccountingDate getAccountingDate
  accountingDaysPerMonth)

section Calendar

def IsLeap (year : Int) : Prop :=
  year % 4 = 0 ∧ (year % 100 ≠ 0 ∨ year % 400 = 0)

/-- The days before a year. -/
def daysBefore (year : Int) : Int :=
  365 * (year - 1) + (year - 1) / 4 - (year - 1) / 100 + (year - 1) / 400

/-- `date.toordinal`. -/
def ordinal (day : LocalDay) : Int := daysBefore day.year + day.dayOfYear

/-- Only leap years have as many days. -/
def IsDate (day : LocalDay) : Prop := day.dayOfYear = 366 → IsLeap day.year

def monthOf (day : LocalDay) : Month :=
  ((getAccountingDate day).2.2, (getAccountingDate day).2.1)

/-- An accounting month and the days of the year that it takes. -/
theorem monthOf_cases (day : LocalDay) :
    (monthOf day).1 = day.year ∧ 1 ≤ (monthOf day).2 ∧
      28 * ((monthOf day).2 - 1) < day.dayOfYear ∧
      ((monthOf day).2 ≤ 12 ∧ (day.dayOfYear : Int) ≤ 28 * (monthOf day).2 ∨
        (monthOf day).2 = 13) := by
  obtain ⟨year, dayOfYear, first, last⟩ := day
  simp only [monthOf, getAccountingDate, accountingDaysPerMonth]
  split
  next balance =>
    dsimp only
    omega
  next regular =>
    dsimp only at regular ⊢
    omega

theorem daysBefore_succ (year : Int) :
    daysBefore (year + 1) = daysBefore year + 365 ∧ ¬ IsLeap year ∨
      daysBefore (year + 1) = daysBefore year + 366 ∧ IsLeap year := by
  unfold daysBefore IsLeap
  omega

theorem daysBefore_of_le {first second : Int} (ordered : first ≤ second) :
    daysBefore first + 365 * (second - first) ≤ daysBefore second := by
  unfold daysBefore
  omega

variable {day today : LocalDay}

/-- What is archived is more than 365 days old. -/
theorem age_of_old (isDate : IsDate day)
    (old : monthTotal (monthOf day) <
      monthTotal (monthOf today) - liveDbRetentionMonths) :
    366 ≤ ordinal today - ordinal day := by
  obtain ⟨year, least, starts, ends⟩ := monthOf_cases day
  obtain ⟨todayYear, todayLeast, todayStarts, todayEnds⟩ := monthOf_cases today
  have last := day.last
  simp only [monthTotal, liveDbRetentionMonths, year, todayYear] at old
  rw [ordinal, ordinal]
  have later : day.year + 1 ≤ today.year := by omega
  have years := daysBefore_of_le later
  rcases daysBefore_succ day.year with ⟨next, regular⟩ | ⟨next, -⟩
  · have short : day.dayOfYear ≠ 366 := fun whole => regular (isDate whole)
    omega
  · omega

/-- What is 395 days old is archived. -/
theorem old_of_age (isDate : IsDate today)
    (age : 395 ≤ ordinal today - ordinal day) :
    monthTotal (monthOf day) <
      monthTotal (monthOf today) - liveDbRetentionMonths := by
  obtain ⟨year, least, starts, ends⟩ := monthOf_cases day
  obtain ⟨todayYear, todayLeast, todayStarts, todayEnds⟩ := monthOf_cases today
  have last := today.last
  rw [ordinal, ordinal] at age
  simp only [monthTotal, liveDbRetentionMonths, year, todayYear]
  rcases lt_trichotomy today.year (day.year + 1) with sooner | same | later
  · have years := daysBefore_of_le (Int.lt_add_one_iff.mp sooner)
    omega
  · rw [same] at age ⊢
    rcases daysBefore_succ day.year with ⟨next, -⟩ | ⟨next, leap⟩
    · omega
    · have short : today.dayOfYear ≠ 366 := by
        intro whole
        have alsoLeap := isDate whole
        rw [same] at alsoLeap
        unfold IsLeap at leap alsoLeap
        omega
      omega
  · omega

end Calendar

section Runs

variable (env : Environment) (pid : Text)

/-- A run of the archival: its day, and the metrics of the days that are there
then. -/
structure Run where
  today : LocalDay
  metrics : Metrics

def archiveRun (archive : Archive) (run : Run) : Archive :=
  (migrateToArchive env pid run.metrics (monthTotal (monthOf run.today))
    archive).1

def archiveAfter (runs : List Run) : Archive :=
  runs.foldl (archiveRun env pid) .empty

/-- Whether a run finds metrics of a day. -/
def Run.Has (run : Run) (day : LocalDay) : Prop :=
  ∃ row ∈ run.metrics.rows, dateOf row = getAccountingDate day ∧ row.pid = pid

/-- What the archive has of the days by their age. -/
structure Retains (runs : List Run) (now : LocalDay) : Prop where
  recent : ∀ day, IsDate day → ordinal now - ordinal day ≤ 365 → ∀ other,
    (archiveAfter env pid runs).monthly (monthOf day, other) = none
  old : ∀ run ∈ runs, ∀ day, run.Has pid day →
    395 ≤ ordinal run.today - ordinal day →
    ((archiveAfter env pid runs).monthly (monthOf day, pid)).isSome

variable {env pid} {run : Run} {runs : List Run} {now day : LocalDay}

/-- A run archives the months of the metrics that it finds and that are old
enough. -/
theorem archiveRun_isSome (has : run.Has pid day) (isDate : IsDate run.today)
    (age : 395 ≤ ordinal run.today - ordinal day) (archive : Archive) :
    ((archiveRun env pid archive run).monthly (monthOf day, pid)).isSome := by
  obtain ⟨row, member, dated, ofPid⟩ := has
  have inMonth : row.inMonth = monthOf day :=
    Prod.ext (congrArg (·.2.2) dated) (congrArg (·.2.1) dated)
  have found : daily run.metrics pid (monthOf day) ≠ [] :=
    List.ne_nil_of_mem (List.mem_filter.mpr
      ⟨member, decide_eq_true ⟨inMonth, ofPid⟩⟩)
  rw [archiveRun, monthly_migrate, if_pos ⟨rfl, mem_oldMonths.mpr
    ⟨found, old_of_age isDate age⟩⟩]
  rfl

theorem archiveRun_keeps {month : Month} {other : Text} {archive : Archive}
    (held : (archive.monthly (month, other)).isSome) (run : Run) :
    ((archiveRun env pid archive run).monthly (month, other)).isSome := by
  rw [archiveRun, monthly_migrate]
  split
  · rfl
  · exact held

theorem foldl_archiveRun_keeps {month : Month} {other : Text}
    {archive : Archive} (held : (archive.monthly (month, other)).isSome) :
    ((runs.foldl (archiveRun env pid) archive).monthly (month, other)).isSome := by
  induction runs generalizing archive with
  | nil => exact held
  | cons run runs ih => exact ih (archiveRun_keeps held run)

/-- A month that no run finds old enough gets no row. -/
theorem foldl_archiveRun_none {month : Month} {other : Text}
    (young : ∀ run ∈ runs, ¬ monthTotal month <
      monthTotal (monthOf run.today) - liveDbRetentionMonths)
    {archive : Archive} (absent : archive.monthly (month, other) = none) :
    (runs.foldl (archiveRun env pid) archive).monthly (month, other) = none := by
  induction runs generalizing archive with
  | nil => exact absent
  | cons run runs ih =>
      refine ih (fun later member => young later (.tail _ member)) ?_
      rw [archiveRun, monthly_migrate, if_neg]
      · exact absent
      · rintro ⟨-, member⟩
        exact young run (.head _) (mem_oldMonths.mp member).2

/-- Metrics of January 2020, archived on two days of 2022. -/
def yearly : List Run :=
  [⟨⟨2022, 20, by decide, by decide⟩, oneMonth⟩,
    ⟨⟨2022, 40, by decide, by decide⟩, oneMonth⟩]

end Runs

end ArchiveRetention

end RefinetPillars
