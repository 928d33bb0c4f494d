import RefinetPillars.PillarStakingAccount

/-!
# Soundness of the exemption from fees

The contract keeps only the latest unstaking stretch, as two day numbers.  A day
strictly between them was spent in the unstaking state entirely, whatever the
operator toggled before and afterwards.
-/

namespace RefinetPillars

namespace PillarStaking

open RunHistory

variable {this : Address}

/-- A state of the contract in force at an instant of a run. -/
abbrev StateAt (start : World) (inputs : List (Input this)) (instant : Nat)
    (state : World) : Prop :=
  InForce Input.time Input.apply start inputs instant state

/-- What the recorded unstaking stretch says about the past of a run. -/
structure StretchSound (start : World) (inputs : List (Input this))
    (pid : Pid) (pillar : Pillar) : Prop where
  /-- Every instant strictly inside the stretch was spent unstaking. -/
  inside : pillar.unstakeFromDay ≠ 0 → ∀ instant state,
    StateAt start inputs instant state →
      pillar.unstakeFromDay < instant / oneDay →
        instant / oneDay < pillar.unstakeToDay →
          (state.pillars pid).unstakeRequestedAt ≠ 0
  /-- The stretch is open while the request stands. -/
  pending : pillar.unstakeRequestedAt ≠ 0 → pillar.unstakeToDay = uint32Max
  /-- A cancelled stretch ended in the past. -/
  closed : pillar.unstakeFromDay ≠ 0 → pillar.unstakeRequestedAt = 0 →
    ∃ input ∈ inputs, pillar.unstakeToDay ≤ input.time / oneDay

section Steps

variable {start : World} {input : Input this} {inputs : List (Input this)}
  {pid : Pid} {pillar after : Pillar}

/-- A Pillar that never unstaked has no stretch to account for. -/
theorem stretchSound_of_none (none : pillar.unstakeFromDay = 0)
    (idle : pillar.unstakeRequestedAt = 0) :
    StretchSound start inputs pid pillar where
  inside some := (some none).elim
  pending some := (some idle).elim
  closed some := (some none).elim

/-- Inputs that leave the unstaking fields alone. -/
theorem StretchSound.kept (stretch : StretchSound start inputs pid pillar)
    (now : (runInputs start (input :: inputs)).pillars pid = after)
    (sameRequest : after.unstakeRequestedAt = pillar.unstakeRequestedAt)
    (sameFrom : after.unstakeFromDay = pillar.unstakeFromDay)
    (sameTo : after.unstakeToDay = pillar.unstakeToDay) :
    StretchSound start (input :: inputs) pid after := by
  constructor
  case inside =>
    rw [sameFrom, sameTo]
    intro some instant state inForce afterFrom beforeTo
    rcases (inForce_cons Input.time).mp inForce with
      ⟨rfl, times⟩ | ⟨_, earlier⟩
    · rw [now, sameRequest]
      intro idle
      obtain ⟨ending, member, ended⟩ := stretch.closed some idle
      have passed : ending.time / oneDay ≤ instant / oneDay :=
        Nat.div_le_div_right (times ending (by simp [member]))
      omega
    · exact stretch.inside some instant state earlier afterFrom beforeTo
  case pending =>
    rw [sameRequest, sameTo]
    exact stretch.pending
  case closed =>
    rw [sameRequest, sameFrom, sameTo]
    intro some idle
    obtain ⟨ending, member, ended⟩ := stretch.closed some idle
    exact ⟨ending, by simp [member], ended⟩

/-- A request opens a new stretch on its own day. -/
theorem stretchSound_requested {tx : Tx this}
    (times : BlockTimes (.transaction tx :: inputs))
    (late : oneDay ≤ tx.msg.timestamp)
    (now : (runInputs start (.transaction tx :: inputs)).pillars pid =
      pillar.unstakeRequested tx.msg) :
    StretchSound start (.transaction tx :: inputs) pid
      (pillar.unstakeRequested tx.msg) := by
  have requested : (pillar.unstakeRequested tx.msg).unstakeRequestedAt ≠ 0 := by
    simp only [Pillar.unstakeRequested, times.timestamp]
    simp only [oneDay] at late
    omega
  constructor
  case inside =>
    intro _ instant state inForce afterFrom _
    rcases (inForce_cons Input.time).mp inForce with
      ⟨rfl, _⟩ | ⟨early, _⟩
    · rw [now]
      exact requested
    · -- No instant after the day of the request is before the request.
      have bound : instant / oneDay ≤ tx.msg.timestamp / oneDay :=
        Nat.div_le_div_right early
      simp only [Pillar.unstakeRequested, times.today] at afterFrom
      omega
  case pending => exact fun _ => rfl
  case closed => exact fun _ idle => (requested idle).elim

/-- A cancellation closes the open stretch on its own day. -/
theorem StretchSound.cancelled {tx : Tx this}
    (stretch : StretchSound start inputs pid pillar)
    (times : BlockTimes (.transaction tx :: inputs))
    (pending : pillar.unstakeRequestedAt ≠ 0) :
    StretchSound start (.transaction tx :: inputs) pid
      (pillar.unstakeCancelled tx.msg) := by
  constructor
  case inside =>
    intro some instant state inForce afterFrom beforeTo
    simp only [Pillar.unstakeCancelled, times.today] at some afterFrom beforeTo
    rcases (inForce_cons Input.time).mp inForce with
      ⟨_, passed⟩ | ⟨_, earlier⟩
    · have bound : tx.msg.timestamp / oneDay ≤ instant / oneDay :=
        Nat.div_le_div_right (passed (.transaction tx) (by simp))
      omega
    · apply stretch.inside some instant state earlier afterFrom
      rw [stretch.pending pending]
      have bound : tx.msg.timestamp / oneDay < 2 ^ 32 :=
        times.2 (.transaction tx) (by simp)
      simp only [uint32Max]
      omega
  case pending => exact fun absurdity => (absurdity rfl).elim
  case closed =>
    intro _ _
    refine ⟨.transaction tx, by simp, ?_⟩
    simp only [Pillar.unstakeCancelled, times.today]
    exact le_rfl

end Steps

section Runs

variable {token admin feeRecipient : Address} {balanceOf : Balances}
  {start : World}

/-- The recorded stretch is sound in every run. -/
theorem stretchSound_runInputs
    (deployed : deploy this token admin feeRecipient balanceOf = .ok start)
    (pid : Pid) {inputs : List (Input this)} (times : BlockTimes inputs)
    (late : ∀ input ∈ inputs, oneDay ≤ input.time) :
    StretchSound start inputs pid ((runInputs start inputs).pillars pid) := by
  induction inputs with
  | nil =>
      have blank := congrArg Account.pillar (account_deploy deployed pid).1
      change start.pillars pid = {} at blank
      rw [runInputs, run_nil, blank]
      exact stretchSound_of_none rfl rfl
  | cons input inputs ih =>
      have stretch := ih times.of_cons fun earlier member =>
        late earlier (by simp [member])
      rcases account_apply input (sound_runInputs deployed inputs) pid with
        ⟨accountEq, _⟩ | ⟨tx, event, rfl, _, step, _⟩
      · have pillarEq : (runInputs start (input :: inputs)).pillars pid =
            (runInputs start inputs).pillars pid :=
          congrArg Account.pillar accountEq
        rw [pillarEq]
        exact stretch.kept pillarEq rfl rfl rfl
      · have now : (runInputs start (.transaction tx :: inputs)).account pid =
            (Input.apply (.transaction tx) (runInputs start inputs)).account
              pid := rfl
        generalize (Input.apply (.transaction tx)
          (runInputs start inputs)).account pid = after at step now
        change StretchSound start _ pid
          ((runInputs start (.transaction tx :: inputs)).account pid).pillar
        rw [now]
        have pillarNow := congrArg Account.pillar now
        generalize tx.call = call at step
        cases step with
        | unaffected => exact stretch.kept pillarNow rfl rfl rfl
        | registered => exact stretchSound_of_none rfl rfl
        | toppedUp => exact stretch.kept pillarNow rfl rfl rfl
        | endpointSet => exact stretch.kept pillarNow rfl rfl rfl
        | unstakeRequested =>
            exact stretchSound_requested times
              (late (.transaction tx) (by simp)) pillarNow
        | unstakeCancelled operated pending =>
            exact stretch.cancelled times pending
        | withdrawn => exact stretchSound_of_none rfl rfl
        | @recorded pids day member past recent recordable =>
            obtain ⟨staked, last, frame⟩ :=
              ((runInputs start inputs).account pid).recordedOn_frame day
            rw [frame] at pillarNow ⊢
            exact stretch.kept pillarNow rfl rfl rfl

/-- Above the floor, only exempt days are recorded for free. -/
theorem Pillar.unstakingThatDay_of_free {pillar : Pillar} {day : Nat}
    (above : feeFloor < pillar.staked) (free : pillar.feeDue day = 0) :
    pillar.UnstakingThatDay day := by
  by_contra charged
  simp only [Pillar.feeDue, charged, above, if_true, if_false] at free
  split at free
  · omega
  · simp [feePerDay, ether] at free

/-- Exemption soundness.  If a transaction records a day for a Pillar above the
floor and its stake is not charged, then the Pillar was unstaking, and hence
not active, at every instant of that day. -/
theorem exempt_day {tx : Tx this} {inputs : List (Input this)} {pid : Pid}
    {day : Nat}
    (deployed : deploy this token admin feeRecipient balanceOf = .ok start)
    (times : BlockTimes (.transaction tx :: inputs))
    (late : ∀ input ∈ .transaction tx :: inputs, oneDay ≤ input.time)
    (fresh : (runInputs start inputs).inactiveRecorded pid day = false)
    (recorded : (runInputs start
      (.transaction tx :: inputs)).inactiveRecorded pid day = true)
    (above : feeFloor < ((runInputs start inputs).pillars pid).staked)
    (free : ((runInputs start (.transaction tx :: inputs)).pillars
      pid).staked = ((runInputs start inputs).pillars pid).staked) :
    ∀ instant, instant / oneDay = day → ∀ state,
      StateAt start (.transaction tx :: inputs) instant state →
        (state.pillars pid).unstakeRequestedAt ≠ 0 ∧
          isActive state.toStorage instant pid = false := by
  intro instant sameDay state inForce
  rcases account_apply (.transaction tx) (sound_runInputs deployed inputs)
    pid with ⟨accountEq, _⟩ | ⟨_, event, txEq, _, step, _⟩
  · have unchanged := congrFun (congrArg Account.recorded accountEq) day
    change (runInputs start (.transaction tx :: inputs)).inactiveRecorded
      pid day = (runInputs start inputs).inactiveRecorded pid day at unchanged
    rw [recorded, fresh] at unchanged
    cases unchanged
  · obtain rfl := Input.transaction.inj txEq
    obtain ⟨recordable, after, past, _⟩ := step.recorded_of_flag fresh recorded
    -- The day was free because it lies inside the recorded stretch.
    have pillarEq : (runInputs start (.transaction tx :: inputs)).pillars pid =
        ((runInputs start inputs).pillars pid).recorded day := by
      rw [Account.recordedOn_of_recordable recordable] at after
      exact congrArg Account.pillar after
    have charged :=
      ((runInputs start inputs).pillars pid).recorded_staked day
    rw [← pillarEq] at charged
    have noFee : ((runInputs start inputs).pillars pid).feeDue day = 0 := by
      omega
    obtain ⟨some, afterFrom, beforeTo⟩ :=
      Pillar.unstakingThatDay_of_free above noFee
    have unstaking : (state.pillars pid).unstakeRequestedAt ≠ 0 := by
      rcases (inForce_cons Input.time).mp inForce with
        ⟨_, passed⟩ | ⟨_, earlier⟩
      · have bound : tx.msg.timestamp / oneDay ≤ instant / oneDay :=
          Nat.div_le_div_right (passed (.transaction tx) (by simp))
        rw [times.today] at past
        omega
      · have stretch := stretchSound_runInputs deployed pid
          times.of_cons fun input member => late input (by simp [member])
        apply stretch.inside some instant state earlier
        · rw [sameDay]
          exact afterFrom
        · rw [sameDay]
          exact beforeTo
    refine ⟨unstaking, ?_⟩
    simp [isActive, unstaking]

end Runs

section Examples

/-- The operator asks to unstake on day 2. -/
def requestedRun : List (Input 1) :=
  [(byAdmin (3 * oneDay)).sends (.grantRole .oracle 6),
    (byOperator (2 * oneDay)).sends (.requestUnstake 7),
    (byOperator oneDay).sends
      (.register 7 (threshold + 20 * ether) [])]

/-- Day 4, recorded on day 5. -/
def exemptRecording : Tx 1 :=
  ⟨byOracle (5 * oneDay), .recordInactive [7] 4,
    exactToken 1⟩

theorem exempt_day_requested :
    ∃ state, StateAt fundedWorld
        (.transaction exemptRecording :: requestedRun)
        (4 * oneDay + 43200) state ∧
      (state.pillars 7).unstakeRequestedAt ≠ 0 ∧
        isActive state.toStorage (4 * oneDay + 43200) 7 = false := by
  have times : BlockTimes (.transaction exemptRecording :: requestedRun) := by
    constructor
    · simp [Chronological, exemptRecording, requestedRun, Msg.sends,
        Input.time, oneDay]
    · simp [exemptRecording, requestedRun, Msg.sends, Input.time, oneDay]
  have late : ∀ input ∈ .transaction exemptRecording :: requestedRun,
      oneDay ≤ input.time := by
    simp [exemptRecording, requestedRun, Msg.sends, Input.time, oneDay]
  have fresh : (runInputs fundedWorld requestedRun).inactiveRecorded 7 4 =
      false := by
    decide +kernel
  have inForce : StateAt fundedWorld
      (.transaction exemptRecording :: requestedRun) (4 * oneDay + 43200)
      (runInputs fundedWorld requestedRun) := by
    refine ⟨[.transaction exemptRecording], requestedRun, rfl, rfl, ?_, ?_⟩
    · simp [exemptRecording, Input.time, oneDay]
    · simp [requestedRun, Msg.sends, Input.time, oneDay]
  exact ⟨_, inForce, exempt_day deploy_fundedWorld times late fresh
    (by decide +kernel) (by decide +kernel) (by decide +kernel)
    (4 * oneDay + 43200) (by decide) _ inForce⟩

/-- The operator asks to unstake on a day whose number, truncated, is 5. -/
def truncatedRun : List (Input 1) :=
  [(byAdmin ((2 ^ 32 + 7) * oneDay)).sends
      (.grantRole .oracle 6),
    (byOperator ((2 ^ 32 + 5) * oneDay)).sends
      (.requestUnstake 7),
    (byOperator oneDay).sends
      (.register 7 (threshold + 20 * ether) [])]

def truncatedRecording : Input 1 :=
  (byOracle ((2 ^ 32 + 8) * oneDay)).sends
    (.recordInactive [7] 6)

/-- When day numbers no longer fit, day 6 is recorded without a fee although
the Pillar was active on it. -/
theorem exempt_day_truncated :
    Chronological Input.time (truncatedRecording :: truncatedRun) ∧
      (∀ input ∈ truncatedRecording :: truncatedRun, oneDay ≤ input.time) ∧
      (runInputs fundedWorld truncatedRun).inactiveRecorded 7 6 = false ∧
      (runInputs fundedWorld
        (truncatedRecording :: truncatedRun)).inactiveRecorded 7 6 = true ∧
      feeFloor < ((runInputs fundedWorld truncatedRun).pillars 7).staked ∧
      ((runInputs fundedWorld
          (truncatedRecording :: truncatedRun)).pillars 7).staked =
        ((runInputs fundedWorld truncatedRun).pillars 7).staked ∧
      ∃ state, StateAt fundedWorld (truncatedRecording :: truncatedRun)
          (6 * oneDay) state ∧
        isActive state.toStorage (6 * oneDay) 7 = true := by
  refine ⟨?_, ?_, by decide +kernel, by decide +kernel, by decide +kernel,
    by decide +kernel, ?_⟩
  · simp [Chronological, truncatedRecording, truncatedRun, Msg.sends,
      Input.time, oneDay]
  · simp [truncatedRecording, truncatedRun, Msg.sends, Input.time, oneDay]
  · refine ⟨_, ⟨truncatedRecording :: truncatedRun.take 2,
      truncatedRun.drop 2, rfl, rfl, ?_, ?_⟩, by decide +kernel⟩
    · simp [truncatedRecording, truncatedRun, Msg.sends, Input.time, oneDay]
    · simp [truncatedRun, Msg.sends, Input.time, oneDay]

end Examples

end PillarStaking

end RefinetPillars
