import Mathlib
import RefinetPillars.PillarStakingSolvency
import RefinetPillars.PillarStakingAccount

/-!
# Withdrawals cannot be blocked

Between a request to unstake and the withdrawal only the oracle can touch the
stake, and only for the few days that it may still backfill and that precede
the request.  When the cooldown is over the withdrawal succeeds.
-/

namespace RefinetPillars

namespace PillarStaking

open ReentrantCode RunHistory

variable {this : Address}

/-- How many of the days up to the request are recorded, among those that can
still be charged after it. -/
def Account.backfilled (account : Account) (requestDay : Nat) : Nat :=
  ((Finset.Icc (requestDay - maxBackfillDays) requestDay).filter
    fun day => account.recorded day = true).card

theorem Account.backfilled_le (account : Account) (requestDay : Nat) :
    account.backfilled requestDay ≤ 8 := by
  apply (Finset.card_filter_le _ _).trans
  rw [Nat.card_Icc]
  simp only [maxBackfillDays]
  omega

/-- Recording a chargeable day uses up one of them. -/
theorem Account.backfilled_recordedOn {account : Account}
    {day requestDay : Nat} (recordable : account.Recordable day)
    (inside : requestDay - maxBackfillDays ≤ day) (before : day ≤ requestDay) :
    (account.recordedOn day).backfilled requestDay =
      account.backfilled requestDay + 1 := by
  have unrecorded : day ∉
      (Finset.Icc (requestDay - maxBackfillDays) requestDay).filter
        fun day => account.recorded day = true := by
    simp [recordable.2.2]
  rw [Account.backfilled, Account.backfilled,
    ← Finset.card_insert_of_notMem unrecorded]
  congr 1
  ext other
  rw [Account.recordedOn_of_recordable recordable]
  by_cases same : other = day
  · subst same
    simp [inside, before]
  · simp [same]

theorem Account.backfilled_mono (account : Account) (day requestDay : Nat) :
    account.backfilled requestDay ≤
      (account.recordedOn day).backfilled requestDay := by
  apply Finset.card_le_card
  apply Finset.monotone_filter_right
  intro other _ recorded
  by_cases recordable : account.Recordable day
  · rw [Account.recordedOn_of_recordable recordable]
    by_cases same : other = day
    · simp [same]
    · simpa [same] using recorded
  · rw [Account.recordedOn_of_not_recordable recordable]
    exact recorded

/-- An account whose operator asked at time `requestedAt` to unstake `stake`. -/
structure Awaiting (operator : Address) (requestedAt stake : Nat)
    (account : Account) : Prop where
  operator_eq : account.pillar.operator = operator
  requested : account.pillar.unstakeRequestedAt = requestedAt
  from_day : account.pillar.unstakeFromDay = requestedAt / oneDay
  to_day : account.pillar.unstakeToDay = uint32Max
  /-- Every fee since the request used up one of the backfilled days. -/
  spent : stake ≤ account.pillar.staked +
    feePerDay * account.backfilled (requestedAt / oneDay)

/-- The stake stays within eight fees of what it was. -/
theorem Awaiting.stake_le {operator : Address} {requestedAt stake : Nat}
    {account : Account}
    (awaiting : Awaiting operator requestedAt stake account) :
    stake ≤ account.pillar.staked + 8 * ether := by
  have spent := awaiting.spent
  have bound := account.backfilled_le (requestedAt / oneDay)
  have fees := Nat.mul_le_mul_left feePerDay bound
  simp only [feePerDay] at spent fees
  omega

/-- Recording a day for an account that awaits its withdrawal. -/
theorem Awaiting.recorded {operator : Address} {requestedAt stake day : Nat}
    {account : Account} {msg : Msg this}
    (awaiting : Awaiting operator requestedAt stake account)
    (late : oneDay ≤ requestedAt)
    (past : day < msg.today) (recent : msg.today ≤ day + maxBackfillDays)
    (afterwards : requestedAt / oneDay ≤ msg.today)
    (recordable : account.Recordable day) :
    Awaiting operator requestedAt stake (account.recordedOn day) := by
  obtain ⟨_, _, frame⟩ := account.recordedOn_frame day
  constructor
  case operator_eq =>
    rw [frame]
    exact awaiting.operator_eq
  case requested =>
    rw [frame]
    exact awaiting.requested
  case from_day =>
    rw [frame]
    exact awaiting.from_day
  case to_day =>
    rw [frame]
    exact awaiting.to_day
  case spent =>
    have spent := awaiting.spent
    have charged := account.pillar.recorded_staked day
    have limited := account.pillar.feeDue_le_feePerDay day
    have pillarEq : (account.recordedOn day).pillar =
        account.pillar.recorded day := by
      rw [Account.recordedOn_of_recordable recordable]
    by_cases exempt : account.pillar.UnstakingThatDay day
    · have kept : account.pillar.recorded day = account.pillar := if_pos exempt
      have more := Nat.mul_le_mul_left feePerDay
        (account.backfilled_mono day (requestedAt / oneDay))
      rw [pillarEq, kept]
      omega
    · -- Days that are not exempt precede the request and are in the window.
      have before : day ≤ requestedAt / oneDay := by
        by_contra after
        apply exempt
        refine ⟨?_, ?_, ?_⟩
        · rw [awaiting.from_day]
          exact (Nat.div_pos late (by simp [oneDay])).ne'
        · rw [awaiting.from_day]
          omega
        · have := Nat.mod_lt (msg.timestamp / oneDay) (Nat.two_pow_pos 32)
          rw [awaiting.to_day]
          simp only [Msg.today, uint32] at past
          simp only [uint32Max]
          omega
      rw [pillarEq, Account.backfilled_recordedOn recordable (by omega) before,
        Nat.mul_succ]
      omega

/-- One step of an account that awaits its withdrawal.  Its operator neither
cancels the request nor withdraws. -/
theorem Awaiting.step {operator : Address} {requestedAt stake : Nat}
    {account after : Account} {msg : Msg this} {pid : Pid} {call : Call}
    {event : Option Event}
    (awaiting : Awaiting operator requestedAt stake account)
    (late : oneDay ≤ requestedAt)
    (afterwards : requestedAt / oneDay ≤ msg.today)
    (registered : account.pillar.operator ≠ 0)
    (noCancel : msg.sender = operator → call ≠ .cancelUnstake pid)
    (noWithdrawal : msg.sender = operator → call ≠ .withdraw pid)
    (step : Account.Step msg pid account call event after) :
    Awaiting operator requestedAt stake after := by
  have pending : account.pillar.unstakeRequestedAt ≠ 0 := by
    rw [awaiting.requested]
    have : 0 < oneDay := by simp [oneDay]
    omega
  cases step with
  | unaffected => exact awaiting
  | registered nonzero blank => exact (registered (by rw [blank])).elim
  | toppedUp operated idle => exact (pending idle).elim
  | endpointSet operated fits =>
      exact ⟨awaiting.operator_eq, awaiting.requested, awaiting.from_day,
        awaiting.to_day, awaiting.spent⟩
  | unstakeRequested operated idle => exact (pending idle).elim
  | unstakeCancelled operated =>
      exact (noCancel (operated.2.symm.trans awaiting.operator_eq) rfl).elim
  | withdrawn operated =>
      exact (noWithdrawal (operated.2.symm.trans awaiting.operator_eq)
        rfl).elim
  | recorded member past recent recordable =>
      exact awaiting.recorded late past recent afterwards recordable

/-- After `earlier`, the operator neither cancels a request for the PID nor
succeeds in withdrawing it. -/
structure LeavesPending (start : World) (operator : Address) (pid : Pid)
    (later earlier : List (Input this)) : Prop where
  noCancel : ∀ tx, .transaction tx ∈ later → tx.msg.sender = operator →
    tx.call ≠ .cancelUnstake pid
  noWithdrawal : ∀ tx after before, later = after ++ .transaction tx :: before →
    tx.msg.sender = operator → tx.call = .withdraw pid →
      ∀ final, tx.execute (runInputs start (before ++ earlier)) ≠ .ok final

theorem LeavesPending.of_cons {start : World} {operator : Address} {pid : Pid}
    {input : Input this} {later earlier : List (Input this)}
    (pending : LeavesPending start operator pid (input :: later) earlier) :
    LeavesPending start operator pid later earlier where
  noCancel tx member := pending.noCancel tx (by simp [member])
  noWithdrawal tx after before split :=
    pending.noWithdrawal tx (input :: after) before (by simp [split])

section Runs

variable {token admin feeRecipient : Address} {balanceOf : Balances}
  {start : World} {pid : Pid} {request : Tx this}
  {later earlier : List (Input this)}

/-- A successful request starts the wait. -/
theorem awaiting_request
    (times : BlockTimes (.transaction request :: earlier))
    (requests : request.call = .requestUnstake pid)
    (effect : request.Effect (runInputs start earlier)
      (runInputs start (.transaction request :: earlier))) :
    (runInputs start (.transaction request :: earlier)).Registered pid ∧
      Awaiting request.msg.sender request.msg.timestamp
        ((runInputs start earlier).pillars pid).staked
        ((runInputs start (.transaction request :: earlier)).account pid) := by
  obtain ⟨msg, call, token⟩ := request
  obtain rfl : call = .requestUnstake pid := requests
  obtain ⟨operated, _, final⟩ := effect
  have pillarEq : (runInputs start (.transaction
      ⟨msg, .requestUnstake pid, token⟩ :: earlier)).pillars pid =
        ((runInputs start earlier).pillars pid).unstakeRequested msg := by
    rw [← final]
    simp [World.emitted, World.setPillar]
  constructor
  · rw [Storage.Registered, pillarEq]
    exact operated.1
  · constructor
    case operator_eq =>
      change ((runInputs start _).pillars pid).operator = _
      rw [pillarEq]
      exact operated.2
    case requested =>
      change ((runInputs start _).pillars pid).unstakeRequestedAt = _
      rw [pillarEq]
      exact times.timestamp
    case from_day =>
      change ((runInputs start _).pillars pid).unstakeFromDay = _
      rw [pillarEq]
      exact times.today
    case to_day =>
      change ((runInputs start _).pillars pid).unstakeToDay = _
      rw [pillarEq]
      rfl
    case spent =>
      change _ ≤ ((runInputs start _).pillars pid).staked + _
      rw [pillarEq]
      exact Nat.le_add_right _ _

/-- The wait lasts as long as the operator leaves the request pending. -/
theorem awaiting_runInputs
    (deployed : deploy this token admin feeRecipient balanceOf = .ok start)
    (times : BlockTimes (later ++ .transaction request :: earlier))
    (late : oneDay ≤ request.msg.timestamp)
    (requests : request.call = .requestUnstake pid)
    (effect : request.Effect (runInputs start earlier)
      (runInputs start (.transaction request :: earlier)))
    (pending : LeavesPending start request.msg.sender pid later
      (.transaction request :: earlier)) :
    (runInputs start (later ++ .transaction request :: earlier)).Registered
        pid ∧
      Awaiting request.msg.sender request.msg.timestamp
        ((runInputs start earlier).pillars pid).staked
        ((runInputs start
          (later ++ .transaction request :: earlier)).account pid) := by
  induction later with
  | nil => exact awaiting_request times requests effect
  | cons input later ih =>
      obtain ⟨registered, awaiting⟩ := ih times.of_cons pending.of_cons
      have continued :
          runInputs start (input :: later ++ .transaction request :: earlier) =
            input.apply
              (runInputs start (later ++ .transaction request :: earlier)) :=
        rfl
      rw [continued]
      rcases account_apply input (sound_runInputs deployed _) pid with
        ⟨accountEq, _⟩ | ⟨tx, event, rfl, effected, step, _⟩
      · constructor
        · have operators := congrArg (·.pillar.operator) accountEq
          exact fun blank => registered (operators.symm.trans blank)
        · rw [accountEq]
          exact awaiting
      · have ordered : request.msg.timestamp ≤ tx.msg.timestamp :=
          ((chronological_cons Input.time).mp times.1).1
            (.transaction request) (by simp)
        have afterwards : request.msg.timestamp / oneDay ≤ tx.msg.today := by
          rw [BlockTimes.today times]
          exact Nat.div_le_div_right ordered
        have executed := execute_ok_iff_effect.mpr effected
        have after := awaiting.step late afterwards registered
          (pending.noCancel tx (by simp))
          (fun sender withdraws =>
            pending.noWithdrawal tx [] later rfl sender withdraws _ executed)
          step
        refine ⟨?_, after⟩
        have operatorEq := after.operator_eq
        exact fun blank => request.msg.sender_ne_zero
          (operatorEq.symm.trans blank)

/-- In a sound and solvent world the operator can withdraw after the
cooldown. -/
theorem withdraw_effect {world : World} {withdrawal : Tx this}
    (sound : Sound world) (solvent : Solvent this world)
    (withdraws : withdrawal.call = .withdraw pid)
    (operated : world.OperatedBy withdrawal.msg pid)
    (pending : (world.pillars pid).unstakeRequestedAt ≠ 0)
    (cooled : (world.pillars pid).unstakeRequestedAt + cooldown ≤
      withdrawal.msg.timestamp)
    (paysOut : PaysOut this withdrawal.token) :
    ∃ balances, withdrawal.token (.transfer (world.pillars pid).operator
          (world.pillars pid).staked) world.balanceOf = some balances ∧
      withdrawal.execute world =
        .ok (((world.released pid).rebalanced balances).emitted
          (.withdrawn pid (world.pillars pid).operator
            (world.pillars pid).staked)) := by
  have mapped := (sound.registered_iff pid).mp operated.1
  have backed := sound.staked_le_totalStaked pid
  have covered := solvent.covered
  obtain ⟨balances, answered⟩ := Option.isSome_iff_exists.mp
    (paysOut (world.pillars pid).operator (world.pillars pid).staked
      world.balanceOf (by omega))
  refine ⟨balances, answered, ?_⟩
  rw [execute_ok_iff_effect]
  obtain ⟨msg, call, token⟩ := withdrawal
  obtain rfl : call = .withdraw pid := withdraws
  exact ⟨operated, pending, cooled, backed, mapped,
    sound.indexed.slot_lt_length mapped, balances, answered, rfl⟩

/-- Anyone may register a PID that is not registered. -/
theorem register_effect {world : World} {msg : Msg this} {token : Token}
    {amount : Nat} {endpoint : List UInt8} {balances : Balances}
    (solvent : Solvent this world) (erc20 : Erc20 this token)
    (nonzero : pid ≠ 0) (absent : ¬ world.Registered pid)
    (fits : endpoint.length ≤ maxEndpointLength) (asked : amount ≠ 0)
    (answered : token (.transferFrom msg.sender amount) world.balanceOf =
      some balances)
    (enough : threshold ≤ balances this - world.balanceOf this) :
    ∃ next, Tx.execute ⟨msg, .register pid amount endpoint, token⟩ world =
        .ok next ∧
      (next.pillars pid).operator = msg.sender := by
  obtain ⟨arrived, _, bounded⟩ := erc20.transferFrom_delivers answered
  have covered := solvent.covered
  refine ⟨_, execute_ok_iff_effect.mpr ⟨nonzero, absent, fits, asked,
    balances, answered, arrived, enough, by omega, rfl⟩, ?_⟩
  simp [World.enrolled, Pillar.enrolled]

/-- No role can block a withdrawal.  After a successful request whose operator
has neither cancelled it nor withdrawn, a withdrawal by the operator at least
fourteen days later succeeds and pays exactly the current stake, which is at
least the smaller of the stake at the request and the floor, and within eight
REFI of the stake at the request; and afterwards anyone may register the
PID. -/
theorem withdrawal_unblockable
    (deployed : deploy this token admin feeRecipient balanceOf = .ok start)
    (erc20 : ∀ input ∈ later ++ .transaction request :: earlier,
      input.Erc20)
    (times : BlockTimes (later ++ .transaction request :: earlier))
    (late : oneDay ≤ request.msg.timestamp)
    (requests : request.call = .requestUnstake pid)
    (accepted : ∃ world, request.execute (runInputs start earlier) = .ok world)
    (pending : LeavesPending start request.msg.sender pid later
      (.transaction request :: earlier))
    {withdrawal : Tx this} (withdraws : withdrawal.call = .withdraw pid)
    (sender : withdrawal.msg.sender = request.msg.sender)
    (cooled : request.msg.timestamp + cooldown ≤ withdrawal.msg.timestamp)
    (honest : Erc20 this withdrawal.token)
    (paysOut : PaysOut this withdrawal.token) :
    let before := runInputs start (later ++ .transaction request :: earlier)
    let stake := (before.pillars pid).staked
    let requested := ((runInputs start earlier).pillars pid).staked
    ∃ final, withdrawal.execute before = .ok final ∧
      final.payments =
        .stake pid request.msg.sender stake :: before.payments ∧
      final.balanceOf =
        moveTokens this request.msg.sender stake before.balanceOf ∧
      min requested feeFloor ≤ stake ∧
      requested ≤ stake + 8 * ether ∧
      ¬ final.Registered pid ∧
      ∀ (msg : Msg this) (token : Token) (amount : Nat)
        (endpoint : List UInt8) (balances : Balances),
        Erc20 this token → endpoint.length ≤ maxEndpointLength →
          amount ≠ 0 →
          token (.transferFrom msg.sender amount) final.balanceOf =
            some balances →
          threshold ≤ balances this - final.balanceOf this →
          ∃ next, Tx.execute ⟨msg, .register pid amount endpoint, token⟩
              final = .ok next ∧
            (next.pillars pid).operator = msg.sender := by
  intro before stake requested
  obtain ⟨world, executed⟩ := accepted
  have requestEffect : request.Effect (runInputs start earlier)
      (runInputs start (.transaction request :: earlier)) := by
    have effect := execute_ok_iff_effect.mp executed
    change request.Effect _
      (Input.apply (.transaction request) (runInputs start earlier))
    rw [apply_of_effect effect]
    exact effect
  obtain ⟨registered, awaiting⟩ :=
    awaiting_runInputs deployed times late requests requestEffect pending
  have sound : Sound before := sound_runInputs deployed _
  have solvent : Solvent this before :=
    (Solvent.deploy deployed).runInputs erc20
  have operatorEq : (before.pillars pid).operator = request.msg.sender :=
    awaiting.operator_eq
  have requestedAt : (before.pillars pid).unstakeRequestedAt =
      request.msg.timestamp := awaiting.requested
  obtain ⟨balances, answered, succeeded⟩ := withdraw_effect sound solvent
    withdraws ⟨registered, operatorEq.trans sender.symm⟩
    (by rw [requestedAt]
        simp only [oneDay] at late
        omega)
    (by rw [requestedAt]
        exact cooled) paysOut
  have absent : ¬ (((before.released pid).rebalanced balances).emitted
      (.withdrawn pid (before.pillars pid).operator
        (before.pillars pid).staked)).Registered pid := by
    simp [World.emitted, World.rebalanced, World.released,
      Storage.Registered]
  refine ⟨_, succeeded, ?_, ?_, ?_, awaiting.stake_le, absent, ?_⟩
  · rw [← operatorEq]
    rfl
  · rw [← operatorEq]
    exact (honest.transfer_exact answered).2
  · exact (min_le_right _ _).trans (sound.floor pid registered)
  · intro msg token amount endpoint arriving erc20 fits asked delivered enough
    have nonzero : pid ≠ 0 := (sound.registered_iff_mem.mp registered).1
    have solventAfter : Solvent this
        (((before.released pid).rebalanced balances).emitted
          (.withdrawn pid (before.pillars pid).operator
            (before.pillars pid).staked)) :=
      solvent.effect honest (execute_ok_iff_effect.mp succeeded)
    exact register_effect solventAfter erc20 nonzero absent fits asked
      delivered enough

end Runs

section Examples

/-- A Pillar registers on day 1. -/
def registeredRun : List (Input 1) :=
  [(byOperator oneDay).sends
    (.register 7 (threshold + 20 * ether) [])]

def unstakeRequest : Tx 1 :=
  ⟨byOperator (2 * oneDay), .requestUnstake 7, exactToken 1⟩

/-- After the request the oracle is appointed and records day 2. -/
def coolingRun : List (Input 1) :=
  [(byOracle (3 * oneDay)).sends (.recordInactive [7] 2),
    (byAdmin (3 * oneDay)).sends (.grantRole .oracle 6)]

def withdrawalCall : Tx 1 :=
  ⟨byOperator (16 * oneDay), .withdraw 7, exactToken 1⟩

theorem withdrawal_unblockable_cooled :
    ∃ final, withdrawalCall.execute (runInputs fundedWorld
        (coolingRun ++ .transaction unstakeRequest :: registeredRun)) =
        .ok final ∧
      ¬ final.Registered 7 := by
  have erc20 : ∀ input ∈
      coolingRun ++ .transaction unstakeRequest :: registeredRun,
      input.Erc20 := by
    have honest : (Input.transaction unstakeRequest).Erc20 :=
      exactToken_erc20 1
    simp [coolingRun, registeredRun, Msg.sends_erc20, honest]
  have times : BlockTimes
      (coolingRun ++ .transaction unstakeRequest :: registeredRun) := by
    constructor
    · simp [Chronological, coolingRun, unstakeRequest, registeredRun,
        Msg.sends, Input.time, oneDay]
    · simp [coolingRun, unstakeRequest, registeredRun, Msg.sends, Input.time,
        oneDay]
  have others : ∀ tx, .transaction tx ∈ coolingRun → tx.msg.sender ≠ 5 := by
    simp [coolingRun, Msg.sends]
  have pending : LeavesPending fundedWorld 5 7 coolingRun
      (.transaction unstakeRequest :: registeredRun) :=
    { noCancel := fun tx member sender => (others tx member sender).elim
      noWithdrawal := fun tx after before split sender =>
        (others tx (by simp [split]) sender).elim }
  obtain ⟨final, executed, _, _, _, _, gone, _⟩ :=
    withdrawal_unblockable deploy_fundedWorld erc20 times (by decide) rfl
      ⟨_, rfl⟩ pending (show withdrawalCall.call = .withdraw 7 from rfl) rfl
      (by decide) (exactToken_erc20 1) (exactToken_paysOut 1)
  exact ⟨final, executed, gone⟩

/-- The Pillar of day 0: it is registered and asks to unstake within the first
day, and the oracle then records its days. -/
def dayZeroRun : List (Input 1) :=
  [(byOracle (14 * oneDay)).sends (.recordInactive [7] 13),
    (byOracle (14 * oneDay)).sends (.recordInactive [7] 12),
    (byOracle (14 * oneDay)).sends (.recordInactive [7] 11),
    (byOracle (14 * oneDay)).sends (.recordInactive [7] 10),
    (byOracle (14 * oneDay)).sends (.recordInactive [7] 9),
    (byOracle (14 * oneDay)).sends (.recordInactive [7] 8),
    (byOracle (8 * oneDay)).sends (.recordInactive [7] 7),
    (byOracle (8 * oneDay)).sends (.recordInactive [7] 6),
    (byOracle (8 * oneDay)).sends (.recordInactive [7] 5),
    (byAdmin 3).sends (.grantRole .oracle 6)]

def dayZeroRequest : Tx 1 :=
  ⟨byOperator 2, .requestUnstake 7, exactToken 1⟩

def dayZeroRegistration : List (Input 1) :=
  [(byOperator 1).sends
    (.register 7 (threshold + 20 * ether) [])]

/-- An operator who has withdrawn cannot withdraw again; and a request made on
day 0 leaves no stretch, so that the window costs more than 8 REFI. -/
theorem withdrawal_unblockable_exceptions :
    (∃ final, withdrawalCall.execute (runInputs fundedWorld
        (coolingRun ++ .transaction unstakeRequest :: registeredRun)) =
        .ok final ∧
      withdrawalCall.execute final = .error (.reverted .notRegistered)) ∧
    (∃ world, dayZeroRequest.execute (runInputs fundedWorld
        dayZeroRegistration) = .ok world) ∧
      ((runInputs fundedWorld (dayZeroRun ++ .transaction dayZeroRequest ::
          dayZeroRegistration)).pillars 7).staked + 8 * ether <
        ((runInputs fundedWorld dayZeroRegistration).pillars 7).staked :=
  ⟨⟨_, rfl, rfl⟩, ⟨_, rfl⟩, by decide +kernel⟩

end Examples

end PillarStaking

end RefinetPillars
