import RefinetPillars.PillarStakingOldRecords

/-!
# Isolation of registrations

A withdrawn PID may be registered again, and the records of its inactive days
survive the withdrawal.  They are all older than the new registration, so they
influence nothing: a run continues exactly as it would have if the PID had
never been registered before.
-/

namespace RefinetPillars

namespace PillarStaking

open RunHistory

variable {this : Address}

section Registrations

variable {token admin feeRecipient : Address} {balanceOf : Balances}
  {start : World} {earlier inputs : List (Input this)} {pid : Pid}

/-- Every recorded day was over when the run recorded it. -/
theorem recorded_past
    (deployed : deploy this token admin feeRecipient balanceOf = .ok start)
    (times : BlockTimes inputs) {day : Nat}
    (flagged : (runInputs start inputs).inactiveRecorded pid day = true) :
    ∃ input ∈ inputs, day < input.time / oneDay := by
  induction inputs with
  | nil =>
      have blank := congrArg Account.recorded (account_deploy deployed pid).1
      have fresh : start.inactiveRecorded pid day = false :=
        congrFun blank day
      simp [runInputs, fresh] at flagged
  | cons input inputs ih =>
      cases before : (runInputs start inputs).inactiveRecorded pid day with
      | true =>
          obtain ⟨recording, member, past⟩ := ih times.of_cons before
          exact ⟨recording, by simp [member], past⟩
      | false =>
          rcases account_apply input (sound_runInputs deployed inputs) pid with
            ⟨accountEq, _⟩ | ⟨tx, event, rfl, _, step, _⟩
          · have unchanged : (runInputs start
                (input :: inputs)).inactiveRecorded pid day =
                  (runInputs start inputs).inactiveRecorded pid day :=
              congrFun (congrArg Account.recorded accountEq) day
            rw [flagged, before] at unchanged
            cases unchanged
          · obtain ⟨_, _, past, _⟩ := step.recorded_of_flag before flagged
            rw [times.today] at past
            exact ⟨.transaction tx, by simp, past⟩

theorem registeredAt_throughout
    (deployed : deploy this token admin feeRecipient balanceOf = .ok start)
    (throughout : Throughout Input.apply start
      (fun world => world.Registered pid) earlier inputs) :
    ((runInputs start inputs).pillars pid).registeredAt =
      ((runInputs start earlier).pillars pid).registeredAt := by
  induction inputs with
  | nil => rw [List.suffix_nil.mp throughout.1]
  | cons input inputs ih =>
      rcases List.suffix_cons_iff.mp throughout.1 with atEnd | older
      · rw [atEnd]
      · obtain ⟨standing, registered⟩ :=
          (Throughout.cons_iff older).mp throughout
        rw [← ih standing]
        rcases account_apply input (sound_runInputs deployed inputs) pid with
          ⟨accountEq, _⟩ | ⟨tx, event, rfl, _, step, _⟩
        · exact congrArg (·.pillar.registeredAt) accountEq
        · exact step.registeredAt standing.now registered

/-- The transaction after `earlier` made the current registration of the
PID. -/
structure RegisteredBy (start : World) (inputs : List (Input this))
    (pid : Pid) (tx : Tx this) (earlier : List (Input this)) : Prop where
  absent : ¬ (runInputs start earlier).Registered pid
  since : Throughout Input.apply start (fun world => world.Registered pid)
    (.transaction tx :: earlier) inputs
  registeredAt : ((runInputs start inputs).pillars pid).registeredAt =
    uint64 tx.msg.timestamp

theorem exists_registeredBy
    (deployed : deploy this token admin feeRecipient balanceOf = .ok start)
    (registered : (runInputs start inputs).Registered pid) :
    ∃ tx earlier, RegisteredBy start inputs pid tx earlier := by
  have initially : ¬ (runInputs start ([] : List (Input this))).Registered
      pid := by
    have blank := congrArg Account.pillar (account_deploy deployed pid).1
    exact fun standing => standing (congrArg Pillar.operator blank)
  obtain ⟨input, earlier, _, absent, since⟩ : ∃ input earlier,
      [] <:+ earlier ∧ ¬ (runInputs start earlier).Registered pid ∧
        Throughout Input.apply start (fun world => world.Registered pid)
          (input :: earlier) inputs :=
    exists_onset (fun world : World => world.Registered pid) List.nil_suffix
      initially registered
  rcases account_apply input (sound_runInputs deployed earlier) pid with
    ⟨accountEq, _⟩ | ⟨tx, event, rfl, _, step, _⟩
  · have operators := congrArg (·.pillar.operator) accountEq
    exact (absent fun blank => since.initially (operators.trans blank)).elim
  · refine ⟨tx, earlier, absent, since, ?_⟩
    rw [registeredAt_throughout deployed since]
    change ((Input.apply (.transaction tx) (runInputs start earlier)).account
      pid).pillar.registeredAt = _
    have standing : ((Input.apply (.transaction tx)
        (runInputs start earlier)).account pid).pillar.operator ≠ 0 :=
      since.initially
    generalize (Input.apply (.transaction tx)
      (runInputs start earlier)).account pid = after at step standing ⊢
    generalize tx.call = call at step
    cases step with
    | registered => rfl
    | unaffected => exact (absent standing).elim
    | toppedUp operated => exact (absent operated.1).elim
    | endpointSet operated => exact (absent operated.1).elim
    | unstakeRequested operated => exact (absent operated.1).elim
    | unstakeCancelled operated => exact (absent operated.1).elim
    | withdrawn operated => exact (absent operated.1).elim
    | recorded member past recent recordable =>
        exact (absent recordable.1).elim

/-- The registration day is the UTC day of the registering transaction. -/
theorem RegisteredBy.registrationDay {tx : Tx this}
    (by_tx : RegisteredBy start inputs pid tx earlier)
    (times : BlockTimes inputs) :
    ((runInputs start inputs).pillars pid).registrationDay =
      tx.msg.timestamp / oneDay := by
  have timesThen := times.of_sublist by_tx.since.1.sublist
  rw [Pillar.registrationDay, by_tx.registeredAt, timesThen.timestamp]
  exact timesThen.today

/-- Records made before the current registration are older than it. -/
theorem RegisteredBy.old_flag {tx : Tx this}
    (by_tx : RegisteredBy start inputs pid tx earlier)
    (deployed : deploy this token admin feeRecipient balanceOf = .ok start)
    (times : BlockTimes inputs) {day : Nat}
    (flagged : (runInputs start earlier).inactiveRecorded pid day = true) :
    day < ((runInputs start inputs).pillars pid).registrationDay := by
  have timesThen := times.of_sublist by_tx.since.1.sublist
  obtain ⟨recording, member, past⟩ :=
    recorded_past deployed timesThen.of_cons flagged
  have ordered : recording.time ≤ tx.msg.timestamp :=
    ((chronological_cons Input.time).mp timesThen.1).1 recording member
  rw [by_tx.registrationDay times]
  exact past.trans_le (Nat.div_le_div_right ordered)

/-- Days after the registration day that are recorded now were recorded while
the current registration stood. -/
theorem RegisteredBy.new_flag {tx : Tx this}
    (by_tx : RegisteredBy start inputs pid tx earlier)
    (deployed : deploy this token admin feeRecipient balanceOf = .ok start)
    (times : BlockTimes inputs) {day : Nat}
    (after : ((runInputs start inputs).pillars pid).registrationDay < day)
    (flagged : (runInputs start inputs).inactiveRecorded pid day = true) :
    ∃ input moment, (input :: moment) <:+ inputs ∧
      (.transaction tx :: earlier) <:+ moment ∧
      (runInputs start moment).inactiveRecorded pid day = false ∧
      (runInputs start (input :: moment)).inactiveRecorded pid day = true := by
  have freshBefore :
      ¬ (runInputs start earlier).inactiveRecorded pid day = true :=
    fun old => (by_tx.old_flag deployed times old).not_gt after
  have fresh : ¬ (runInputs start
      (.transaction tx :: earlier)).inactiveRecorded pid day = true := by
    intro atRegistration
    rcases account_apply (.transaction tx) (sound_runInputs deployed earlier)
      pid with ⟨accountEq, _⟩ | ⟨_, event, txEq, _, step, _⟩
    · have unchanged := congrFun (congrArg Account.recorded accountEq) day
      exact freshBefore (unchanged.symm.trans atRegistration)
    · obtain ⟨recordable, _⟩ := step.recorded_of_flag
        (Bool.not_eq_true _ ▸ freshBefore) atRegistration
      exact by_tx.absent recordable.1
  obtain ⟨input, moment, since, unflagged, throughout⟩ :=
    exists_onset (fun world : World => world.inactiveRecorded pid day = true)
      by_tx.since.1 fresh flagged
  exact ⟨input, moment, throughout.1, since, Bool.not_eq_true _ ▸ unflagged,
    throughout.initially⟩

/-- The world as it would be if the PID had never been registered. -/
def World.forgotten (pid : Pid) (world : World) : World :=
  { world with
    pillars := Function.update world.pillars pid {}
    inactiveRecorded :=
      Function.update world.inactiveRecorded pid fun _ => false }

/-- Forgetting an unregistered PID changes nothing but its records. -/
theorem forgotten_eq_reflagged {world : World} (sound : Sound world)
    (absent : ¬ world.Registered pid) :
    world.forgotten pid = world.reflagged
      (Function.update world.inactiveRecorded pid fun _ => false) := by
  have blank : Function.update world.pillars pid {} = world.pillars := by
    rw [← sound.unregistered pid absent]
    exact Function.update_eq_self pid world.pillars
  rw [World.forgotten, World.reflagged, blank]

/-- The run after the registration is the one that would follow if the PID had
never been registered before, apart from records of days before it. -/
theorem RegisteredBy.isolated {tx : Tx this} {later : List (Input this)}
    (by_tx : RegisteredBy start (later ++ earlier) pid tx earlier)
    (deployed : deploy this token admin feeRecipient balanceOf = .ok start)
    (times : BlockTimes (later ++ earlier)) :
    ∃ flags, runInputs ((runInputs start earlier).forgotten pid) later =
        (runInputs start (later ++ earlier)).reflagged flags ∧
      (∀ other, other ≠ pid → flags other =
        (runInputs start (later ++ earlier)).inactiveRecorded other) ∧
      ∀ day, tx.msg.timestamp / oneDay ≤ day → flags pid day =
        (runInputs start (later ++ earlier)).inactiveRecorded pid day := by
  have timesThen := times.of_sublist by_tx.since.1.sublist
  have sound := sound_runInputs deployed earlier
  have agrees : AgreesFrom pid (tx.msg.timestamp / oneDay)
      (runInputs start earlier)
      (Function.update (runInputs start earlier).inactiveRecorded pid
        fun _ => false) := by
    constructor
    case others => exact fun other different => Function.update_of_ne different _ _
    case later =>
      intro day late
      rw [Function.update_self]
      symm
      rw [← Bool.not_eq_true]
      intro flagged
      obtain ⟨recording, member, past⟩ :=
        recorded_past deployed timesThen.of_cons flagged
      have ordered : recording.time ≤ tx.msg.timestamp :=
        ((chronological_cons Input.time).mp timesThen.1).1 recording member
      have bound : recording.time / oneDay ≤ tx.msg.timestamp / oneDay :=
        Nat.div_le_div_right ordered
      omega
    case registration => exact fun standing => (by_tx.absent standing).elim
  have late : ∀ input ∈ later,
      tx.msg.timestamp / oneDay ≤ input.time / oneDay := by
    obtain ⟨since, split⟩ := by_tx.since.1
    obtain rfl : since ++ [.transaction tx] = later := by
      rw [← List.append_left_inj earlier, List.append_assoc]
      exact split
    intro input member
    apply Nat.div_le_div_right
    rcases List.mem_append.mp member with afterwards | registration
    · rw [List.append_assoc] at times
      exact (List.pairwise_append.mp times.1).2.2 input afterwards
        (.transaction tx) (by simp)
    · rw [List.mem_singleton.mp registration]
      exact le_rfl
  obtain ⟨flags, runEq, agreed⟩ := agrees.runInputs sound
    (times.of_sublist (List.sublist_append_left later earlier)) late
  have continued : runInputs start (later ++ earlier) =
      runInputs (runInputs start earlier) later := run_append later earlier
  rw [forgotten_eq_reflagged sound by_tx.absent, runEq, continued]
  exact ⟨flags, rfl, agreed.others, agreed.later⟩

/-- Isolation of registrations.  The current registration was made by one
transaction of the run.  Records made before it are for days before the
registration day, records of later days were made during it, and the run since
then is the one that would follow if the PID had never been registered before,
apart from those old records. -/
theorem reregistration_isolated
    (deployed : deploy this token admin feeRecipient balanceOf = .ok start)
    (times : BlockTimes inputs)
    (registered : (runInputs start inputs).Registered pid) :
    let world := runInputs start inputs
    ∃ tx earlier later, inputs = later ++ earlier ∧
      RegisteredBy start inputs pid tx earlier ∧
      (world.pillars pid).registrationDay = tx.msg.timestamp / oneDay ∧
      (∀ day, (runInputs start earlier).inactiveRecorded pid day = true →
        day < (world.pillars pid).registrationDay) ∧
      (∀ day, (world.pillars pid).registrationDay < day →
        world.inactiveRecorded pid day = true →
        ∃ input moment, (input :: moment) <:+ inputs ∧
          (.transaction tx :: earlier) <:+ moment ∧
          (runInputs start moment).inactiveRecorded pid day = false ∧
          (runInputs start (input :: moment)).inactiveRecorded pid day =
            true) ∧
      ∃ flags, runInputs ((runInputs start earlier).forgotten pid) later =
          world.reflagged flags ∧
        (∀ other, other ≠ pid →
          flags other = world.inactiveRecorded other) ∧
        ∀ day, (world.pillars pid).registrationDay ≤ day →
          flags pid day = world.inactiveRecorded pid day := by
  intro world
  obtain ⟨tx, earlier, by_tx⟩ := exists_registeredBy deployed registered
  obtain ⟨later, split⟩ :=
    (List.suffix_cons (.transaction tx) earlier).trans by_tx.since.1
  have dated := by_tx.registrationDay times
  refine ⟨tx, earlier, later, split.symm, by_tx, dated,
    fun day => by_tx.old_flag deployed times,
    fun day => by_tx.new_flag deployed times, ?_⟩
  rw [dated]
  change ∃ flags, _ = (runInputs start inputs).reflagged flags ∧ _
  subst split
  exact by_tx.isolated deployed times

end Registrations

section Examples

/-- A Pillar with a recorded day leaves and another operator registers its
PID. -/
def returningRun : List (Input 1) :=
  [(bySuccessor (30 * oneDay)).sends
      (.register 7 threshold []),
    (byOperator (20 * oneDay)).sends (.withdraw 7),
    (byOperator (5 * oneDay)).sends (.requestUnstake 7)] ++
    chargedRun

theorem reregistration_isolated_returning :
    ((runInputs fundedWorld returningRun).pillars 7).operator = 8 ∧
      ∃ tx earlier later, returningRun = later ++ earlier ∧
        RegisteredBy fundedWorld returningRun 7 tx earlier ∧
        ∀ day, (runInputs fundedWorld earlier).inactiveRecorded 7 day = true →
          day < ((runInputs fundedWorld returningRun).pillars
            7).registrationDay := by
  have times : BlockTimes returningRun := by
    constructor
    · simp [Chronological, returningRun, chargedRun, Msg.sends, Input.time,
        oneDay]
    · simp [returningRun, chargedRun, Msg.sends, Input.time, oneDay]
  have registered : (runInputs fundedWorld returningRun).Registered 7 := by
    decide +kernel
  obtain ⟨tx, earlier, later, split, by_tx, _, old, _⟩ :=
    reregistration_isolated deploy_fundedWorld times registered
  exact ⟨by decide +kernel, tx, earlier, later, split, by_tx, old⟩

/-- A Pillar leaves after day 100 has been recorded for it. -/
def leavingRun : List (Input 1) :=
  [(byOperator (115 * oneDay)).sends (.withdraw 7),
    (byOperator (101 * oneDay)).sends (.requestUnstake 7),
    (byOracle (101 * oneDay)).sends
      (.recordInactive [7] 100),
    (byAdmin (2 * oneDay)).sends (.grantRole .oracle 6),
    (byOperator oneDay).sends
      (.register 7 (threshold + 20 * ether) [])]

/-- Its PID is registered again on a day whose number, truncated, is 50. -/
def truncatedReturn : Input 1 :=
  (bySuccessor ((2 ^ 32 + 50) * oneDay)).sends
    (.register 7 (threshold + 20 * ether) [])

/-- Day 100 of the new count, recorded on day 101. -/
def truncatedRecord : Tx 1 :=
  ⟨byOracle ((2 ^ 32 + 101) * oneDay),
    .recordInactive [7] 100, exactToken 1⟩

/-- When day numbers no longer fit, the record of the earlier registration
suppresses the fee of the current one. -/
theorem reregistration_isolated_truncated :
    let world := runInputs fundedWorld (truncatedReturn :: leavingRun)
    Chronological Input.time (truncatedReturn :: leavingRun) ∧
      ¬ (runInputs fundedWorld leavingRun).Registered 7 ∧
      (runInputs fundedWorld leavingRun).inactiveRecorded 7 100 = true ∧
      world.Registered 7 ∧ (world.pillars 7).registrationDay = 50 ∧
      ∃ final, truncatedRecord.execute world = .ok final ∧
        (final.pillars 7).staked = (world.pillars 7).staked := by
  refine ⟨?_, by decide +kernel, by decide +kernel, by decide +kernel,
    by decide +kernel, _, rfl, by decide +kernel⟩
  simp [Chronological, truncatedReturn, leavingRun, Msg.sends, Input.time,
    oneDay]

end Examples

end PillarStaking

end RefinetPillars
