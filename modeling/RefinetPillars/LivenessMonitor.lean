import RefinetPillars.LivenessDatabase
import RefinetPillars.PillarStakingEffect

/-!
# The loop of the liveness monitor

The monitor as a state machine whose steps lie between its commits.  The process
may be stopped at any moment and started again on the same database.
-/

namespace RefinetPillars

namespace LivenessMonitor

open HexText RunHistory PillarStaking

variable {this : Address}

def submitBatch : Nat := 100

def finalizeDelaySec : Int := 3600

def maxBackfillDays : Int := 7

/-- Where the process is in its loop. -/
inductive Phase where
  /-- About to probe every Pillar. -/
  | probing
  /-- About to compute the newest day to finalize. -/
  | probed
  /-- At the head of the finalizing loop. -/
  | finalizing (yesterday : Int)
  /-- About to submit the next batch of the day. -/
  | submitting (yesterday : Int) (todo : List Text)
  /-- Done with the day, about to move the cursor. -/
  | finalized (yesterday : Int)

/-- The local variables of `run`. -/
structure Process where
  oldest : Int
  lastFinalized : Int
  phase : Phase

/-- The day the process finalizes next. -/
def Process.day (process : Process) : Int := process.lastFinalized + 1

structure Monitor where
  db : Database
  process : Option Process

/-- What the process finds when it takes a step: the time, the probe results of
a round unless it fails, and the transaction of a submission unless it
raises. -/
structure Tick where
  now : Int
  probed : Option (List (Text × Bool))
  tx : Option Text

inductive Input where
  | start (now : Int)
  | stop (now : Int)
  | tick (found : Tick)

def Input.now : Input → Int
  | .start now => now
  | .stop now => now
  | .tick found => found.now

/-- The local variables before the first round. -/
def Process.started (db : Database) (now : Int) : Process :=
  let oldest := utcDay now - LivenessMonitor.maxBackfillDays
  { oldest := oldest
    lastFinalized :=
      match db.cursor with
      | some stored => max stored (oldest - 1)
      | none => utcDay now - 2
    phase := .probing }

/-- Move the cursor to the day and go on with the next one. -/
def advanced (db : Database) (process : Process) (yesterday : Int) : Monitor :=
  { db := db.setLastFinalizedDay process.day
    process := some
      { process with
        lastFinalized := process.day
        phase := .finalizing yesterday } }

/-- One step of the process. -/
def Process.step (found : Tick) (db : Database) (process : Process) : Monitor :=
  match process.phase with
  | .probing =>
      match found.probed with
      | some results =>
          ⟨db.recordRound found.now results,
            some { process with phase := .probed }⟩
      | none => ⟨db, some { process with phase := .probed }⟩
  | .probed =>
      ⟨db, some { process with
        phase := .finalizing (utcDay (found.now - finalizeDelaySec) - 1) }⟩
  | .finalizing yesterday =>
      if process.lastFinalized < yesterday then
        match pendingForDay db process.day (inactiveForDay db process.day).1 with
        | [] => ⟨db, some { process with phase := .finalized yesterday }⟩
        | todo => ⟨db, some { process with phase := .submitting yesterday todo }⟩
      else ⟨db, some { process with phase := .probing }⟩
  | .submitting yesterday todo =>
      match found.tx with
      | some tx =>
          ⟨db.markSubmitted process.day (todo.take submitBatch) tx,
            some { process with
              phase :=
                match todo.drop submitBatch with
                | [] => .finalized yesterday
                | rest => .submitting yesterday rest }⟩
      | none =>
          if utcDay found.now - LivenessMonitor.maxBackfillDays < process.day then
            ⟨db, some { process with phase := .probing }⟩
          else advanced db process yesterday
  | .finalized yesterday => advanced db process yesterday

def Input.apply : Input → Monitor → Monitor
  | .start now, ⟨db, none⟩ => ⟨db, some (.started db now)⟩
  | .stop _, ⟨db, some _⟩ => ⟨db, none⟩
  | .tick found, ⟨db, some process⟩ => process.step found db
  | _, monitor => monitor

/-- A fresh database and no process. -/
def Monitor.initial : Monitor := ⟨{}, none⟩

abbrev runMonitor (inputs : List Input) : Monitor :=
  run Input.apply .initial inputs

/-- The cursor has passed a day. -/
def Monitor.Passed (monitor : Monitor) (day : Int) : Prop :=
  ∃ last ∈ monitor.db.cursor, day ≤ last

instance (monitor : Monitor) (day : Int) : Decidable (monitor.Passed day) :=
  inferInstanceAs (Decidable (∃ last ∈ monitor.db.cursor, _))

/-- The contract no longer accepts the day. -/
def Refused (day now : Int) : Prop :=
  day + LivenessMonitor.maxBackfillDays < utcDay now

instance (day now : Int) : Decidable (Refused day now) :=
  inferInstanceAs (Decidable (_ < _))

/-- Past the window `recordInactive` does not go through. -/
theorem Refused.reverts {msg : Msg this} {day : Nat}
    (refused : Refused day msg.timestamp)
    (fits : msg.timestamp / oneDay < 2 ^ 32) (pids : List PillarStaking.Pid)
    (token : Token) (world final : World) :
    Tx.execute ⟨msg, .recordInactive pids day, token⟩ world ≠ .ok final := by
  intro executed
  obtain ⟨_, _, recent, _⟩ := execute_ok_iff_effect.mp executed
  have today : msg.today = msg.timestamp / oneDay := Nat.mod_eq_of_lt fits
  rw [today] at recent
  simp only [Refused, utcDay, LivenessMonitor.maxBackfillDays] at refused
  simp only [PillarStaking.maxBackfillDays, oneDay] at recent
  omega

/-- When the monitor goes from one state to the next, every day that the cursor
moves past is settled or refused by the contract. -/
def KeepsDays (before after : Monitor) (now : Int) : Prop :=
  ∀ day, ¬ before.Passed day → after.Passed day →
    after.db.Settled day ∨ Refused day now

/-- No step of the run gives up a day. -/
def NeverGivesUp (inputs : List Input) : Prop :=
  ∀ input earlier, input :: earlier <:+ inputs →
    KeepsDays (runMonitor earlier) (runMonitor (input :: earlier)) input.now

/-- The clock is not before the day on which the process was started; no
submission of the oldest day the contract accepts fails; and a process that
starts without a cursor finds nothing pending on the days that it skips and the
contract accepts. -/
def Allowed : Input → Monitor → Prop
  | .start now, ⟨db, none⟩ =>
      db.cursor = none → ∀ day,
        utcDay now ≤ day + LivenessMonitor.maxBackfillDays → day ≤ utcDay now - 2 →
        pendingForDay db day (inactiveForDay db day).1 = []
  | .tick found, ⟨_, some process⟩ =>
      process.oldest + LivenessMonitor.maxBackfillDays ≤ utcDay found.now ∧
        ∀ yesterday todo, process.phase = .submitting yesterday todo →
          found.tx = none →
          process.day + LivenessMonitor.maxBackfillDays ≠ utcDay found.now
  | _, _ => True

end LivenessMonitor

end RefinetPillars
