import RefinetPillars.PillarStakingAccount

/-!
# Old records

The records of inactive days are read only for days after the registration of
their PID.  Hence a run may start from other records of older days: it makes the
same moves, and everything but those records ends up the same.
-/

namespace RefinetPillars

namespace PillarStaking

open RunHistory

variable {this : Address}

/-- The same world with other records of inactive days. -/
def World.reflagged (world : World) (flags : Pid → Nat → Bool) : World :=
  { world with inactiveRecorded := flags }

/-- The records `flags` may replace those of the world: they differ for one PID
only, on days before `day`, and the PID is not registered before that day. -/
structure AgreesFrom (pid : Pid) (day : Nat) (world : World)
    (flags : Pid → Nat → Bool) : Prop where
  others : ∀ other, other ≠ pid →
    flags other = world.inactiveRecorded other
  later : ∀ other, day ≤ other →
    flags pid other = world.inactiveRecorded pid other
  registration : world.Registered pid →
    day ≤ (world.pillars pid).registrationDay

section Recording

variable {pid first : Pid} {day recording : Nat} {world : World}
  {flags : Pid → Nat → Bool}

/-- Recording a day changes no registration. -/
theorem recorded_registration (recording : Nat) (world : World)
    (first pid : Pid) :
    ((World.recorded recording world first).pillars pid).operator =
        (world.pillars pid).operator ∧
      ((World.recorded recording world first).pillars pid).registrationDay =
        (world.pillars pid).registrationDay := by
  have accountEq := recorded_account recording world first pid
  change ((World.recorded recording world first).account pid).pillar.operator =
      (world.account pid).pillar.operator ∧
    ((World.recorded recording world first).account
      pid).pillar.registrationDay = (world.account pid).pillar.registrationDay
  rw [accountEq]
  split
  · rename_i same
    subst same
    exact ⟨Account.recordedOn_operator _ _,
      Account.recordedOn_registrationDay _ _⟩
  · exact ⟨rfl, rfl⟩

/-- The records agree wherever recording looks. -/
theorem AgreesFrom.recordable (agrees : AgreesFrom pid day world flags) :
    (world.reflagged flags).Recordable recording first ↔
      world.Recordable recording first := by
  by_cases same : first = pid
  · subst same
    constructor
    · rintro ⟨registered, after, fresh⟩
      have bound := agrees.registration registered
      refine ⟨registered, after, ?_⟩
      rw [← agrees.later recording (bound.trans after.le)]
      exact fresh
    · rintro ⟨registered, after, fresh⟩
      have bound := agrees.registration registered
      refine ⟨registered, after, ?_⟩
      change flags first recording = false
      rw [agrees.later recording (bound.trans after.le)]
      exact fresh
  · have sameFlags : (world.reflagged flags).inactiveRecorded first =
        world.inactiveRecorded first := agrees.others first same
    simp only [World.Recordable, sameFlags]
    rfl

theorem AgreesFrom.feeDue (agrees : AgreesFrom pid day world flags) :
    (world.reflagged flags).feeDue recording first =
      world.feeDue recording first := by
  simp only [World.feeDue, agrees.recordable]
  rfl

/-- One round of the loop makes the same change to both worlds. -/
theorem AgreesFrom.recorded (agrees : AgreesFrom pid day world flags)
    (recording : Nat) (first : Pid) :
    ∃ after, World.recorded recording (world.reflagged flags) first =
        (World.recorded recording world first).reflagged after ∧
      AgreesFrom pid day (World.recorded recording world first) after := by
  by_cases recordable : world.Recordable recording first
  · refine ⟨Function.update flags first
      (Function.update (flags first) recording true), ?_, ?_⟩
    · rw [World.recorded, if_pos (agrees.recordable.mpr recordable),
        World.recorded, if_pos recordable]
      rfl
    · constructor
      case others =>
        intro other different
        simp only [World.recorded, recordable, if_true]
        by_cases same : other = first
        · subst same
          rw [Function.update_self, Function.update_self,
            agrees.others other different]
        · rw [Function.update_of_ne same, Function.update_of_ne same,
            agrees.others other different]
      case later =>
        intro other late
        simp only [World.recorded, recordable, if_true]
        by_cases same : pid = first
        · subst same
          rw [Function.update_self, Function.update_self]
          by_cases sameDay : other = recording
          · rw [sameDay, Function.update_self, Function.update_self]
          · rw [Function.update_of_ne sameDay, Function.update_of_ne sameDay,
              agrees.later other late]
        · rw [Function.update_of_ne same, Function.update_of_ne same,
            agrees.later other late]
      case registration =>
        obtain ⟨sameOperator, sameDay⟩ :=
          recorded_registration recording world first pid
        rw [Storage.Registered, sameOperator, sameDay]
        exact agrees.registration
  · rw [World.recorded, if_neg (mt agrees.recordable.mp recordable),
      World.recorded, if_neg recordable]
    exact ⟨flags, rfl, agrees⟩

/-- The loop makes the same changes and charges the same fees. -/
theorem AgreesFrom.recordedAll (agrees : AgreesFrom pid day world flags)
    (recording : Nat) (pids : List Pid) :
    World.feesDue recording (world.reflagged flags) pids =
        World.feesDue recording world pids ∧
      ∃ after, World.recordedAll recording (world.reflagged flags) pids =
          (World.recordedAll recording world pids).reflagged after ∧
        AgreesFrom pid day (World.recordedAll recording world pids) after := by
  induction pids generalizing world flags with
  | nil => exact ⟨rfl, flags, rfl, agrees⟩
  | cons first pids ih =>
      obtain ⟨middle, recordedEq, middleAgrees⟩ :=
        agrees.recorded recording first
      obtain ⟨feesEq, after, allEq, afterAgrees⟩ := ih middleAgrees
      constructor
      · rw [World.feesDue, World.feesDue, agrees.feeDue, recordedEq, feesEq]
      · refine ⟨after, ?_, afterAgrees⟩
        change World.recordedAll recording (World.recorded recording
          (world.reflagged flags) first) pids = _
        rw [recordedEq]
        exact allEq

end Recording

section Transactions

variable {world final : World} {flags : Pid → Nat → Bool}

/-- Apart from recording, no entry point reads or writes the records. -/
theorem Tx.Effect.reflagged {tx : Tx this}
    (silent : ∀ pids day, tx.call ≠ .recordInactive pids day)
    (effect : tx.Effect world final) (flags : Pid → Nat → Bool) :
    tx.Effect (world.reflagged flags) (final.reflagged flags) ∧
      final.inactiveRecorded = world.inactiveRecorded := by
  obtain ⟨msg, call, token⟩ := tx
  cases call with
  | register pid amount endpoint =>
      obtain ⟨nonzero, absent, fits, asked, balances, answered, arrived,
        enough, bounded, rfl⟩ := effect
      exact ⟨⟨nonzero, absent, fits, asked, balances, answered, arrived,
        enough, bounded, rfl⟩, rfl⟩
  | topUp pid amount =>
      obtain ⟨operated, idle, asked, balances, answered, arrived, stakeBound,
        bounded, rfl⟩ := effect
      exact ⟨⟨operated, idle, asked, balances, answered, arrived, stakeBound,
        bounded, rfl⟩, rfl⟩
  | setEndpoint pid endpoint =>
      obtain ⟨operated, fits, rfl⟩ := effect
      exact ⟨⟨operated, fits, rfl⟩, rfl⟩
  | requestUnstake pid =>
      obtain ⟨operated, idle, rfl⟩ := effect
      exact ⟨⟨operated, idle, rfl⟩, rfl⟩
  | cancelUnstake pid =>
      obtain ⟨operated, pending, rfl⟩ := effect
      exact ⟨⟨operated, pending, rfl⟩, rfl⟩
  | withdraw pid =>
      obtain ⟨operated, pending, cooled, backed, mapped, inside, balances,
        answered, rfl⟩ := effect
      exact ⟨⟨operated, pending, cooled, backed, mapped, inside, balances,
        answered, rfl⟩, rfl⟩
  | recordInactive pids day => exact (silent pids day rfl).elim
  | sweepFees =>
      obtain ⟨accrued, balances, answered, rfl⟩ := effect
      exact ⟨⟨accrued, balances, answered, rfl⟩, rfl⟩
  | sweepExcess =>
      obtain ⟨surplus, balances, answered, rfl⟩ := effect
      exact ⟨⟨surplus, balances, answered, rfl⟩, rfl⟩
  | setFeeRecipient feeRecipient =>
      obtain ⟨granted, nonzero, different, rfl⟩ := effect
      exact ⟨⟨granted, nonzero, different, rfl⟩, rfl⟩
  | grantRole role account =>
      obtain ⟨granted, rfl⟩ := effect
      exact ⟨⟨granted, rfl⟩, rfl⟩
  | revokeRole role account =>
      obtain ⟨granted, rfl⟩ := effect
      exact ⟨⟨granted, rfl⟩, rfl⟩
  | renounceRole role confirmation =>
      obtain ⟨confirmed, rfl⟩ := effect
      exact ⟨⟨confirmed, rfl⟩, rfl⟩

/-- A transaction has the same effect on a world with other records of old
days. -/
theorem AgreesFrom.effect {tx : Tx this} {pid : Pid} {day : Nat}
    (agrees : AgreesFrom pid day world flags)
    (effect : tx.Effect world final) :
    ∃ after, tx.Effect (world.reflagged flags) (final.reflagged after) ∧
      (∀ other, other ≠ pid → after other = final.inactiveRecorded other) ∧
      ∀ other, day ≤ other →
        after pid other = final.inactiveRecorded pid other := by
  by_cases recording : ∃ pids recorded, tx.call = .recordInactive pids recorded
  · obtain ⟨pids, recorded, callEq⟩ := recording
    obtain ⟨msg, call, token⟩ := tx
    obtain rfl : call = .recordInactive pids recorded := callEq
    obtain ⟨granted, past, recent, bounded, backed, accrues, rfl⟩ := effect
    obtain ⟨feesEq, after, allEq, afterAgrees⟩ :=
      agrees.recordedAll recorded pids
    refine ⟨after, ?_, afterAgrees.others, afterAgrees.later⟩
    refine ⟨granted, past, recent, ?_, ?_, ?_, ?_⟩
    · rw [feesEq]
      exact bounded
    · rw [feesEq]
      exact backed
    · rw [feesEq]
      exact accrues
    · simp only [World.recordedInactive, feesEq, allEq]
      rfl
  · have silent : ∀ pids recorded, tx.call ≠ .recordInactive pids recorded :=
      fun pids recorded callEq => recording ⟨pids, recorded, callEq⟩
    obtain ⟨reflagged, sameRecords⟩ := effect.reflagged silent flags
    refine ⟨flags, reflagged, ?_, ?_⟩
    · rw [sameRecords]
      exact agrees.others
    · rw [sameRecords]
      exact agrees.later

theorem AgreesFrom.symm {pid : Pid} {day : Nat}
    (agrees : AgreesFrom pid day world flags) :
    AgreesFrom pid day (world.reflagged flags) world.inactiveRecorded where
  others other different := (agrees.others other different).symm
  later other late := (agrees.later other late).symm
  registration := agrees.registration

/-- An input from the day on does the same to both worlds. -/
theorem AgreesFrom.apply {pid : Pid} {day : Nat} {input : Input this}
    {inputs : List (Input this)} (agrees : AgreesFrom pid day world flags)
    (sound : Sound world) (times : BlockTimes (input :: inputs))
    (late : day ≤ input.time / oneDay) :
    ∃ after, input.apply (world.reflagged flags) =
        (input.apply world).reflagged after ∧
      AgreesFrom pid day (input.apply world) after := by
  cases input with
  | tokenTransfer timestamp amount others =>
      refine ⟨flags, ?_, ?_⟩
      · simp only [Input.apply]
        rw [apply_ite (fun changed : World => changed.reflagged flags)]
        rfl
      · simp only [Input.apply]
        split
        · exact ⟨agrees.others, agrees.later, agrees.registration⟩
        · exact agrees
  | transaction tx =>
      by_cases succeeds : ∃ final, tx.Effect world final
      · obtain ⟨final, effect⟩ := succeeds
        obtain ⟨after, reflagged, others, later⟩ := agrees.effect effect
        rw [apply_of_effect effect, apply_of_effect reflagged]
        refine ⟨after, rfl, others, later, ?_⟩
        obtain ⟨event, step, _⟩ := effect.accountsStep sound pid
        intro registered
        by_cases before : world.Registered pid
        · have bound := agrees.registration before
          have sameDate := step.registeredAt before registered
          change (final.pillars pid).registeredAt =
            (world.pillars pid).registeredAt at sameDate
          rw [Pillar.registrationDay, sameDate]
          exact bound
        · have dated := step.registrationDay before registered times
          change (final.pillars pid).registrationDay = _ at dated
          rw [dated]
          exact late
      · have fails : ∀ final, ¬ tx.Effect world final :=
          fun final effect => succeeds ⟨final, effect⟩
        have alsoFails : ∀ final, ¬ tx.Effect (world.reflagged flags) final := by
          intro final effect
          obtain ⟨after, reflagged, _⟩ := agrees.symm.effect effect
          exact fails _ reflagged
        rw [apply_of_not_effect fails, apply_of_not_effect alsoFails]
        exact ⟨flags, rfl, agrees⟩

/-- A run from the day on does the same to both worlds. -/
theorem AgreesFrom.runInputs {pid : Pid} {day : Nat}
    {inputs : List (Input this)} (agrees : AgreesFrom pid day world flags)
    (sound : Sound world) (times : BlockTimes inputs)
    (late : ∀ input ∈ inputs, day ≤ input.time / oneDay) :
    ∃ after, runInputs (world.reflagged flags) inputs =
        (runInputs world inputs).reflagged after ∧
      AgreesFrom pid day (runInputs world inputs) after := by
  induction inputs with
  | nil => exact ⟨flags, rfl, agrees⟩
  | cons input inputs ih =>
      obtain ⟨middle, runEq, middleAgrees⟩ := ih times.of_cons
        fun member memberMem => late member (by simp [memberMem])
      have middleSound : Sound (PillarStaking.runInputs world inputs) :=
        run_invariant sound (fun input _ (_ : True) sound => sound.apply input)
          fun _ _ => trivial
      obtain ⟨after, applyEq, afterAgrees⟩ :=
        middleAgrees.apply middleSound times (late input (by simp))
      refine ⟨after, ?_, afterAgrees⟩
      change input.apply (PillarStaking.runInputs (world.reflagged flags)
        inputs) = _
      rw [runEq]
      exact applyEq

end Transactions

end PillarStaking

end RefinetPillars
