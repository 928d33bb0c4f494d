import RefinetPillars.LivenessMonitor

/-!
# The cursor of the liveness monitor

A run gives up no day that the contract still accepts, as long as no submission
of the oldest such day fails, no process starts without a cursor while days are
pending, and the clock does not fall behind.  The loop does give up the oldest
day that the contract accepts.
-/

namespace RefinetPillars

namespace LivenessMonitor

open HexText RunHistory

/-- What a phase promises about the day being finalized. -/
def Phase.Promises (db : Database) (day : Int) : Phase → Prop
  | .submitting _ todo =>
      ∀ pid ∈ (inactiveForDay db day).1, db.Submitted day pid ∨ pid ∈ todo
  | .finalized _ => db.Settled day
  | _ => True

/-- The days the process has skipped: the contract refused them when it
started, or nothing was pending on them. -/
structure Process.Sound (db : Database) (process : Process) : Prop where
  skipped : ∀ day ≤ process.lastFinalized,
    (∃ last ∈ db.cursor, day ≤ last) ∨ day < process.oldest ∨
      (day < process.oldest + LivenessMonitor.maxBackfillDays ∧ db.Settled day)
  promises : process.phase.Promises db process.day

def Monitor.Sound : Monitor → Prop
  | ⟨_, none⟩ => True
  | ⟨db, some process⟩ => process.Sound db

theorem KeepsDays.of_cursor {before after : Monitor} {now : Int}
    (same : after.db.cursor = before.db.cursor) :
    KeepsDays before after now := by
  intro day fresh passed
  rw [Monitor.Passed, same] at passed
  exact (fresh passed).elim

section Steps

variable {db : Database} {process : Process} {found : Tick}

theorem Process.started_sound {now : Int}
    (allowed : Allowed (.start now) ⟨db, none⟩) :
    (Process.started db now).Sound db where
  skipped day skippedDay := by
    cases cursorEq : db.cursor with
    | none =>
        simp only [Process.started, cursorEq] at skippedDay ⊢
        by_cases refused : day < utcDay now - LivenessMonitor.maxBackfillDays
        · exact Or.inr (Or.inl refused)
        · refine Or.inr (Or.inr ⟨by omega, settled_iff.mpr ?_⟩)
          exact allowed cursorEq day (by omega) skippedDay
    | some stored =>
        simp only [Process.started, cursorEq] at skippedDay ⊢
        by_cases passed : day ≤ stored
        · exact Or.inl ⟨stored, rfl, passed⟩
        · exact Or.inr (Or.inl (by omega))
  promises := trivial

/-- Moving the cursor past a day that is settled or refused. -/
theorem Process.Sound.advanced (sound : process.Sound db) (yesterday : Int)
    {now : Int} (onTime : process.oldest + LivenessMonitor.maxBackfillDays ≤ utcDay now)
    (done : db.Settled process.day ∨ Refused process.day now) :
    (advanced db process yesterday).Sound ∧
      KeepsDays ⟨db, some process⟩ (advanced db process yesterday) now := by
  constructor
  · exact ⟨fun day passed => Or.inl ⟨process.day, rfl, passed⟩, trivial⟩
  · rintro day fresh ⟨last, isLast, reached⟩
    obtain rfl : process.day = last := Option.some.inj isLast
    rcases eq_or_lt_of_le reached with rfl | before
    · exact done
    · rcases sound.skipped day (Int.lt_add_one_iff.mp before) with
        passed | refused | ⟨_, settled⟩
      · exact (fresh passed).elim
      · exact Or.inr (by unfold Refused; omega)
      · exact Or.inl settled

/-- A step that leaves the tables and the skipped days alone. -/
theorem Process.Sound.enter (sound : process.Sound db) (phase : Phase)
    (promises : phase.Promises db process.day) (now : Int) :
    Monitor.Sound ⟨db, some { process with phase := phase }⟩ ∧
      KeepsDays ⟨db, some process⟩
        ⟨db, some { process with phase := phase }⟩ now :=
  ⟨⟨sound.skipped, promises⟩, KeepsDays.of_cursor rfl⟩

/-- A round writes rows of days that the process has not skipped. -/
theorem Process.Sound.recordRound (sound : process.Sound db)
    (onTime : process.oldest + LivenessMonitor.maxBackfillDays ≤ utcDay found.now)
    (results : List (Text × Bool)) :
    Monitor.Sound ⟨db.recordRound found.now results,
      some { process with phase := .probed }⟩ := by
  refine ⟨fun day skippedDay => ?_, trivial⟩
  refine (sound.skipped day skippedDay).imp_right (Or.imp_right ?_)
  rintro ⟨recent, settled⟩
  exact ⟨recent, (settled_recordRound (by omega)).mpr settled⟩

/-- A submitted batch leaves the rest of the list to do. -/
theorem Process.Sound.submitted (sound : process.Sound db)
    {yesterday : Int} {todo : List Text}
    (submitting : process.phase = .submitting yesterday todo) (tx : Text) :
    Monitor.Sound ⟨db.markSubmitted process.day (todo.take submitBatch) tx,
      some { process with
        phase :=
          match todo.drop submitBatch with
          | [] => .finalized yesterday
          | rest => .submitting yesterday rest }⟩ := by
  have promises := sound.promises
  rw [submitting] at promises
  have remaining : ∀ pid ∈ (inactiveForDay (db.markSubmitted process.day
      (todo.take submitBatch) tx) process.day).1,
      (db.markSubmitted process.day (todo.take submitBatch)
        tx).Submitted process.day pid ∨ pid ∈ todo.drop submitBatch := by
    intro pid inactive
    rw [inactiveForDay_markSubmitted] at inactive
    rw [submitted_markSubmitted]
    rcases promises pid inactive with earlier | waiting
    · exact Or.inl (Or.inl earlier)
    · rw [← List.take_append_drop submitBatch todo] at waiting
      exact (List.mem_append.mp waiting).imp_left fun now => Or.inr ⟨rfl, now⟩
  constructor
  case skipped =>
    intro day skippedDay
    obtain ⟨_, _, cursorEq⟩ := markSubmitted_tables db process.day
      (todo.take submitBatch) tx
    rw [cursorEq]
    exact (sound.skipped day skippedDay).imp_right (Or.imp_right
      fun recent => ⟨recent.1, settled_markSubmitted recent.2⟩)
  case promises =>
    change Phase.Promises _ process.day _
    cases restEq : todo.drop submitBatch with
    | nil =>
        intro pid inactive
        simpa [restEq] using remaining pid inactive
    | cons first rest =>
        rw [restEq] at remaining
        exact remaining

/-- A step of the process keeps it sound and gives up no day. -/
theorem Process.Sound.step (sound : process.Sound db)
    (allowed : Allowed (.tick found) ⟨db, some process⟩) :
    (process.step found db).Sound ∧
      KeepsDays ⟨db, some process⟩ (process.step found db) found.now := by
  obtain ⟨onTime, notOldest⟩ := allowed
  unfold Process.step
  cases phaseEq : process.phase with
  | probing =>
      cases found.probed with
      | none => exact sound.enter .probed trivial found.now
      | some results =>
          exact ⟨sound.recordRound onTime results, KeepsDays.of_cursor rfl⟩
  | probed => exact sound.enter (.finalizing _) trivial found.now
  | finalizing yesterday =>
      by_cases behind : process.lastFinalized < yesterday
      · simp only [behind, if_true]
        cases todoEq : pendingForDay db process.day
            (inactiveForDay db process.day).1 with
        | nil =>
            have settled := settled_iff.mpr todoEq
            exact sound.enter (.finalized yesterday) settled found.now
        | cons first rest =>
            refine sound.enter (.submitting yesterday _) ?_ found.now
            intro pid inactive
            rw [← todoEq]
            by_cases submitted : db.Submitted process.day pid
            · exact Or.inl submitted
            · exact Or.inr (List.mem_filter.mpr ⟨inactive, by simpa⟩)
      · simp only [behind, if_false]
        exact sound.enter .probing trivial found.now
  | submitting yesterday todo =>
      cases txEq : found.tx with
      | some tx =>
          refine ⟨sound.submitted phaseEq tx, KeepsDays.of_cursor ?_⟩
          exact (markSubmitted_tables db process.day _ tx).2.2
      | none =>
          have different := notOldest yesterday todo phaseEq txEq
          by_cases recent : utcDay found.now - LivenessMonitor.maxBackfillDays < process.day
          · simp only [recent, if_true]
            exact sound.enter .probing trivial found.now
          · simp only [recent, if_false]
            exact sound.advanced yesterday onTime
              (Or.inr (by unfold Refused; omega))
  | finalized yesterday =>
      have settled := sound.promises
      rw [phaseEq] at settled
      exact sound.advanced yesterday onTime (Or.inl settled)

end Steps

/-- An allowed input keeps the monitor sound and gives up no day. -/
theorem Monitor.Sound.apply {monitor : Monitor} (sound : monitor.Sound)
    {input : Input} (allowed : Allowed input monitor) :
    (input.apply monitor).Sound ∧
      KeepsDays monitor (input.apply monitor) input.now := by
  obtain ⟨db, process⟩ := monitor
  cases process with
  | none =>
      cases input with
      | start now =>
          exact ⟨Process.started_sound allowed, KeepsDays.of_cursor rfl⟩
      | stop now => exact ⟨sound, KeepsDays.of_cursor rfl⟩
      | tick found => exact ⟨sound, KeepsDays.of_cursor rfl⟩
  | some process =>
      cases input with
      | start now => exact ⟨sound, KeepsDays.of_cursor rfl⟩
      | stop now => exact ⟨trivial, KeepsDays.of_cursor rfl⟩
      | tick found => exact Process.Sound.step sound allowed

theorem sound_runMonitor {inputs : List Input}
    (admitted : Admitted Input.apply .initial Allowed inputs) :
    (runMonitor inputs).Sound :=
  admitted.invariant trivial
    fun _ _ allowed sound => (sound.apply allowed).1

/-- A run of allowed inputs never gives up a day the contract still accepts. -/
theorem never_gives_up {inputs : List Input}
    (admitted : Admitted Input.apply .initial Allowed inputs) :
    NeverGivesUp inputs := by
  intro input earlier suffix
  have sound := sound_runMonitor
    (admitted.of_suffix ((List.suffix_cons input earlier).trans suffix))
  exact (sound.apply (admitted input earlier suffix)).2

section Outage

/-- Steps at one time in which no round completes and no submission
succeeds. -/
def outage (now : Int) (steps : Nat) : List Input :=
  List.replicate steps (.tick ⟨now, none, none⟩)

def answering : Text := List.replicate 64 'a'

def silent : Text := List.replicate 64 'b'

/-- Twenty hours of steps, one every five minutes, during which one Pillar
answers and another one does not. -/
def halfAnswered (day : Int) : List Input :=
  ((List.range 240).map fun step : Nat => Input.tick
    ⟨day * 86400 + 300 * step, some [(answering, true), (silent, false)],
      none⟩).reverse

/-- The submissions of day 100 fail on day 101, and on day 107 the next one is
about to be made. -/
def failingWeek : List Input :=
  outage (107 * 86400 + 7200) 2 ++ outage (101 * 86400 + 7200) 4 ++
    halfAnswered 100 ++ [.start (100 * 86400)]

/-- On day 107 the contract still accepts day 100, and the monitor gives it
up. -/
theorem never_gives_up_failingWeek : ¬ ∀ inputs, NeverGivesUp inputs := by
  intro never
  have givenUp : ¬ (runMonitor failingWeek).Passed 100 ∧
      (runMonitor (.tick ⟨107 * 86400 + 7200, none, none⟩ ::
        failingWeek)).Passed 100 ∧
      ¬ (runMonitor (.tick ⟨107 * 86400 + 7200, none, none⟩ ::
        failingWeek)).db.Settled 100 ∧
      ¬ Refused 100 (107 * 86400 + 7200) := by
    decide +kernel
  obtain ⟨fresh, passed, unsettled, accepted⟩ := givenUp
  exact (never _ _ failingWeek (List.suffix_refl _) 100 fresh passed).elim
    unsettled accepted

theorem Allowed.of_succeeds (found : Tick) {monitor : Monitor}
    (succeeds : found.tx ≠ none)
    (onTime : ∀ process ∈ monitor.process,
      process.oldest + LivenessMonitor.maxBackfillDays ≤ utcDay found.now) :
    Allowed (.tick found) monitor := by
  obtain ⟨db, process⟩ := monitor
  cases process with
  | none => trivial
  | some process =>
      exact ⟨onTime process rfl, fun _ _ _ raised => (succeeds raised).elim⟩

/-- A process started on day 100 completes a round and is about to move the
cursor past day 99. -/
def firstRound : List Input :=
  [.tick ⟨100 * 86400 + 7202, none, some []⟩,
    .tick ⟨100 * 86400 + 7201, none, some []⟩,
    .tick ⟨100 * 86400 + 7200, some [(answering, true)], some []⟩,
    .start (100 * 86400 + 7200)]

theorem firstRound_admitted :
    Admitted Input.apply .initial Allowed firstRound := by
  have started : Admitted Input.apply .initial Allowed
      [.start (100 * 86400 + 7200)] := by
    refine admitted_nil.cons fun _ day _ _ => ?_
    simp [inactiveForDay, pendingForDay, roundsPerDay]
  have probed := started.cons (Allowed.of_succeeds
    ⟨100 * 86400 + 7200, some [(answering, true)], some []⟩
    (by decide) (by decide +kernel))
  have counted := probed.cons (Allowed.of_succeeds
    ⟨100 * 86400 + 7201, none, some []⟩ (by decide) (by decide +kernel))
  exact counted.cons (Allowed.of_succeeds _ (by decide) (by decide +kernel))

theorem never_gives_up_firstRound :
    (runMonitor firstRound).db.cursor = none ∧
      (runMonitor
        (.tick ⟨100 * 86400 + 7203, none, some []⟩ :: firstRound)).Passed 99 ∧
      NeverGivesUp
        (.tick ⟨100 * 86400 + 7203, none, some []⟩ :: firstRound) := by
  refine ⟨by decide +kernel, by decide +kernel, never_gives_up ?_⟩
  exact firstRound_admitted.cons
    (Allowed.of_succeeds _ (by decide) (by decide +kernel))

end Outage

end LivenessMonitor

end RefinetPillars
