import Mathlib
import RefinetPillars.HexText

/-!
# The database of the liveness monitor

The tables of the monitor, the judgement of a day, and the records of what has
been submitted.  Times are whole seconds and days are UTC day numbers.
-/

namespace RefinetPillars

namespace LivenessMonitor

open HexText

def roundsPerDay : Nat := 96

def utcDay (ts : Int) : Int := ts / 86400

structure Probe where
  pid : Text
  ts : Int
  ok : Bool
deriving DecidableEq

structure Submission where
  day : Int
  pid : Text
  tx : Text
deriving DecidableEq

/-- The tables; `cursor` is the last finalized day, once there is one. -/
structure Database where
  rounds : List Int := []
  probes : List Probe := []
  submitted : List Submission := []
  cursor : Option Int := none

/-- The rows of a day's queries. -/
def duringDay (day ts : Int) : Bool :=
  decide (day * 86400 ≤ ts ∧ ts < (day + 1) * 86400)

theorem duringDay_iff {day ts : Int} :
    duringDay day ts = true ↔ utcDay ts = day := by
  simp only [duringDay, decide_eq_true_eq, utcDay]
  omega

/-- `INSERT OR REPLACE INTO probes`. -/
def insertProbe (ts : Int) (probes : List Probe) (result : Text × Bool) :
    List Probe :=
  probes.filter (fun probe => ¬ (probe.ts = ts ∧ probe.pid = result.1)) ++
    [⟨result.1, ts, result.2⟩]

/-- What a completed round writes. -/
def Database.recordRound (db : Database) (ts : Int)
    (results : List (Text × Bool)) : Database :=
  { db with
    probes := results.foldl (insertProbe ts) db.probes
    rounds := if ts ∈ db.rounds then db.rounds else db.rounds ++ [ts] }

/-- Why a day was judged as it was. -/
inductive Reason where
  | notCovered (rounds : Nat)
  | outage
  | judged (probed rounds inactive : Nat)
deriving DecidableEq

/-- The PIDs to record inactive for a day, and why.  The quotients of the source
are compared with 4/5 by cross-multiplication. -/
def inactiveForDay (db : Database) (day : Int) : List Text × Reason :=
  let rounds := db.rounds.countP (duringDay day)
  if 5 * rounds < 4 * roundsPerDay then ([], .notCovered rounds)
  else
    let rows := db.probes.filter fun probe => duringDay day probe.ts
    let pids := (rows.map Probe.pid).dedup
    let ok := fun pid => rows.countP fun row => row.pid = pid ∧ row.ok
    let total := fun pid => rows.countP fun row => row.pid = pid
    if pids ≠ [] ∧ ∀ pid ∈ pids, ok pid = 0 then ([], .outage)
    else
      let inactive := (pids.filter fun pid =>
        0 < total pid ∧ 5 * ok pid < 4 * total pid).insertionSort (· ≤ ·)
      (inactive, .judged pids.length rounds inactive.length)

def Database.Submitted (db : Database) (day : Int) (pid : Text) : Prop :=
  ∃ row ∈ db.submitted, row.day = day ∧ row.pid = pid

instance (db : Database) (day : Int) (pid : Text) :
    Decidable (db.Submitted day pid) :=
  inferInstanceAs (Decidable (∃ row ∈ db.submitted, _))

def pendingForDay (db : Database) (day : Int) (pids : List Text) :
    List Text :=
  pids.filter fun pid => ¬ db.Submitted day pid

/-- `INSERT OR IGNORE INTO submitted`. -/
def Database.insertSubmission (db : Database) (row : Submission) : Database :=
  if db.Submitted row.day row.pid then db
  else { db with submitted := db.submitted ++ [row] }

def Database.markSubmitted (db : Database) (day : Int) (pids : List Text)
    (tx : Text) : Database :=
  pids.foldl (fun db pid => db.insertSubmission ⟨day, pid, tx⟩) db

def Database.setLastFinalizedDay (db : Database) (day : Int) : Database :=
  { db with cursor := some day }

/-- Every PID judged inactive on the day has been submitted. -/
def Database.Settled (db : Database) (day : Int) : Prop :=
  ∀ pid ∈ (inactiveForDay db day).1, db.Submitted day pid

instance (db : Database) (day : Int) : Decidable (db.Settled day) :=
  inferInstanceAs (Decidable (∀ pid ∈ _, _))

theorem settled_iff {db : Database} {day : Int} :
    db.Settled day ↔
      pendingForDay db day (inactiveForDay db day).1 = [] := by
  simp [Database.Settled, pendingForDay]

/-- The judgement of a day depends on the rows of that day only. -/
theorem inactiveForDay_congr {first second : Database} {day : Int}
    (rounds : first.rounds.countP (duringDay day) =
      second.rounds.countP (duringDay day))
    (probes : (first.probes.filter fun probe => duringDay day probe.ts) =
      second.probes.filter fun probe => duringDay day probe.ts) :
    inactiveForDay first day = inactiveForDay second day := by
  simp only [inactiveForDay, rounds, probes]

section Rounds

variable {db : Database} {day ts : Int} {results : List (Text × Bool)}

theorem filter_insertProbe {probes : List Probe} {result : Text × Bool}
    (other : duringDay day ts = false) :
    ((insertProbe ts probes result).filter fun probe =>
        duringDay day probe.ts) =
      probes.filter fun probe => duringDay day probe.ts := by
  rw [insertProbe, List.filter_append, List.filter_filter,
    List.filter_singleton, other]
  simp only [cond_false, List.append_nil]
  refine List.filter_congr fun probe _ => ?_
  by_cases during : duringDay day probe.ts = true
  · have different : probe.ts ≠ ts := by
      rintro rfl
      rw [other] at during
      cases during
    simp [different]
  · simp [during]

theorem filter_insertProbes (probes : List Probe)
    (other : duringDay day ts = false) :
    ((results.foldl (insertProbe ts) probes).filter fun probe =>
        duringDay day probe.ts) =
      probes.filter fun probe => duringDay day probe.ts := by
  induction results generalizing probes with
  | nil => rfl
  | cons result results ih =>
      rw [List.foldl_cons, ih, filter_insertProbe other]

/-- A round does not change the judgement of another day. -/
theorem inactiveForDay_recordRound (other : utcDay ts ≠ day) :
    inactiveForDay (db.recordRound ts results) day =
      inactiveForDay db day := by
  have outside : duringDay day ts = false := by
    rw [← Bool.not_eq_true, duringDay_iff]
    exact other
  refine inactiveForDay_congr ?_ (filter_insertProbes _ outside)
  rw [Database.recordRound]
  by_cases known : ts ∈ db.rounds
  · simp [known]
  · simp [known, outside]

@[simp]
theorem recordRound_cursor : (db.recordRound ts results).cursor = db.cursor :=
  rfl

theorem settled_recordRound (other : utcDay ts ≠ day) :
    (db.recordRound ts results).Settled day ↔ db.Settled day := by
  rw [Database.Settled, inactiveForDay_recordRound other]
  rfl

end Rounds

section Submissions

variable {db : Database} {day : Int} {pids : List Text} {tx : Text}

/-- Marking submissions changes that table only. -/
theorem markSubmitted_tables (db : Database) (day : Int) (pids : List Text)
    (tx : Text) :
    (db.markSubmitted day pids tx).rounds = db.rounds ∧
      (db.markSubmitted day pids tx).probes = db.probes ∧
      (db.markSubmitted day pids tx).cursor = db.cursor := by
  induction pids generalizing db with
  | nil => exact ⟨rfl, rfl, rfl⟩
  | cons pid pids ih =>
      obtain ⟨rounds, probes, cursor⟩ := ih (db.insertSubmission ⟨day, pid, tx⟩)
      rw [Database.markSubmitted, List.foldl_cons]
      refine ⟨rounds.trans ?_, probes.trans ?_, cursor.trans ?_⟩ <;>
        · rw [Database.insertSubmission]
          split <;> rfl

theorem submitted_insertSubmission {row : Submission} {other : Int}
    {pid : Text} :
    (db.insertSubmission row).Submitted other pid ↔
      db.Submitted other pid ∨ (row.day = other ∧ row.pid = pid) := by
  rw [Database.insertSubmission]
  split
  · rename_i known
    constructor
    · exact Or.inl
    · rintro (submitted | ⟨rfl, rfl⟩)
      · exact submitted
      · exact known
  · simp [Database.Submitted, or_and_right, exists_or]

theorem submitted_markSubmitted {other : Int} {pid : Text} :
    (db.markSubmitted day pids tx).Submitted other pid ↔
      db.Submitted other pid ∨ (day = other ∧ pid ∈ pids) := by
  induction pids generalizing db with
  | nil => simp [Database.markSubmitted]
  | cons first pids ih =>
      have step := @ih (db.insertSubmission ⟨day, first, tx⟩)
      rw [Database.markSubmitted, List.foldl_cons]
      refine step.trans ?_
      rw [submitted_insertSubmission, or_assoc, ← and_or_left, List.mem_cons,
        eq_comm (a := pid) (b := first)]

theorem inactiveForDay_markSubmitted (other : Int) :
    inactiveForDay (db.markSubmitted day pids tx) other =
      inactiveForDay db other := by
  obtain ⟨rounds, probes, _⟩ := markSubmitted_tables db day pids tx
  exact inactiveForDay_congr (by rw [rounds]) (by rw [probes])

theorem settled_markSubmitted {other : Int} (settled : db.Settled other) :
    (db.markSubmitted day pids tx).Settled other := by
  intro pid inactive
  rw [inactiveForDay_markSubmitted] at inactive
  exact submitted_markSubmitted.mpr (Or.inl (settled pid inactive))

end Submissions

end LivenessMonitor

end RefinetPillars
